/-
  Multimethod.Proofs.Queries — asking for types changes no registry.

  A type test makes a value of the source type, which asks for the number of a type. Where
  no factory is registered the number is there already, so the test changes nothing, and
  neither do the tests that are made of it (`World.Settles`); a selection adds at most an
  event to the journal (`World.Noted`).

  Describing a box with a live object does register: the pointer type of the object's own
  class, if it has no number yet. A program gets such a box by casting a pointer before it
  is put in, which makes the node of the class but no number. So describing boxes one after
  the other enters the pointer types that are missing, each when it is first met, and
  nothing else (`World.missing`, `Step.typesOf_snd`).
-/
import Multimethod.Proofs.Overriding
import Multimethod.Proofs.Registering

namespace Multimethod

open Registries (Grows Course)

/-! ## Tests that change nothing -/

/-- `v` is `w`, or `w` after one more event. -/
def World.Noted (w v : World) : Prop := v = w ∨ ∃ e, v = w.note e

/-- Every test from the type ends in `w`, however scripts are called, and changes nothing. -/
def World.Settles (w : World) (a : Descriptor) : Prop :=
  ∀ b, ∃ ans, ∀ c, Run.isConvertible a b c w = some (ans, w)

/-- What a test says when it may call nothing; a test that must says no. -/
def World.verdict (w : World) (a b : Descriptor) : Bool := ((Run.isConvertible a b).outcome 0 w).getD false

/-- The functions of a dispatcher that accept the types by the verdicts, and none when there are too
    many types. -/
def World.selected {n : Nat} (w : World) (d : Dispatcher n) (types : List Descriptor) : List (Function n) :=
  d.functions.filter fun f => decide (types.length ≤ n) && (types.zip f.params).all fun x => w.verdict x.1 x.2

namespace World.Noted

variable {n : Nat} {w v : World}

/-- The event changes no registry. -/
theorem registries (h : w.Noted v) : v.registries = w.registries := by
  rcases h with rfl | ⟨e, rfl⟩ <;> rfl

theorem report (types : List Descriptor) (found : List (Function n)) (w : World) :
    w.Noted (Dispatcher.report types found w).2 := by
  unfold Dispatcher.report
  split
  · exact .inr ⟨_, rfl⟩
  · exact .inl rfl

theorem exactly (d : Dispatcher n) (types : List Descriptor) (w : World) : w.Noted (d.exactly types w).2 := by
  unfold Dispatcher.exactly
  split
  · exact .inr ⟨_, rfl⟩
  · exact report types _ w

end World.Noted

namespace World.Settles

variable {w : World} {a : Descriptor} {types : List Descriptor}

theorem isConvertible (h : w.Settles a) (b : Descriptor) (c : Caller) :
    Run.isConvertible a b c w = some (w.verdict a b, w) := by
  obtain ⟨ans, hrun⟩ := h b
  rw [hrun, World.verdict, Run.outcome, Run.atDepth, hrun]
  rfl

/-- Without factories, the test from a description settles. -/
theorem of_describes (hw : w.registries.Sound) (ha : w.registries.Describes a)
    (hf : ∀ id, w.registries.factories.find? id = none) : w.Settles a :=
  fun b => Run.exists_isConvertible_default hw ha b fun _ => hf _

/-- Testing types place by place is to look at the verdicts. -/
theorem allConvertible (h : ∀ a ∈ types, w.Settles a) (params : List Descriptor) (c : Caller) :
    Run.allConvertible types params c w = some ((types.zip params).all fun x => w.verdict x.1 x.2, w) := by
  induction types generalizing params with
  | nil => rfl
  | cons a types ih =>
    cases params with
    | nil => rfl
    | cons p params =>
      have hrest := ih (fun b hb => h b (List.mem_cons_of_mem _ hb)) params
      refine Run.bind_eq_some.mpr ⟨w.verdict a p, w, (h a (List.mem_cons_self ..)).isConvertible p c, ?_⟩
      rw [List.zip_cons_cons, List.all_cons]
      cases w.verdict a p with
      | true => exact hrest
      | false => rfl

/-- Types that settle select by the verdicts, and at most an event is added. -/
theorem convertible {n : Nat} (h : ∀ a ∈ types, w.Settles a) (d : Dispatcher n) :
    ∃ v, w.Noted v ∧ ∀ c, d.convertible types c w = some (w.selected d types, v) := by
  unfold World.selected
  by_cases hn : types.length ≤ n
  · simp only [hn, decide_true, Bool.true_and]
    have hselect := fun c => Run.select_eq_filter (l := d.functions) fun f _ => allConvertible h f.params c
    exact ⟨_, .report types _ w, fun c => Run.convertible_of_select hn (hselect c)⟩
  · refine ⟨_, .inr ⟨.tooManyTypes types.length n, rfl⟩, fun c => ?_⟩
    rw [List.filter_eq_nil_iff.mpr fun f _ => by simp [hn]]
    unfold Dispatcher.convertible
    rw [if_pos (Nat.lt_of_not_le hn)]
    rfl

/-- So do arguments whose types settle once they are described. -/
theorem convertibleArgs {n : Nat} {args : List Box}
    (h : ∀ a ∈ (Step.typesOf args w).1, (Step.typesOf args w).2.Settles a) (d : Dispatcher n) :
    ∃ v, (Step.typesOf args w).2.Noted v ∧ ∀ c, d.convertibleArgs args c w =
      some ((Step.typesOf args w).2.selected d (Step.typesOf args w).1, v) := by
  obtain ⟨v, hv, hrun⟩ := convertible h d
  exact ⟨v, hv, fun c => Run.bind_eq_some.mpr ⟨_, _, rfl, hrun c⟩⟩

/-- Where the types of all registered numbers settle, so does a listing. -/
theorem listTypes (h : ∀ id, w.types.entries.contains id = true → w.Settles (w.types.descriptor id))
    (wanted : Option Descriptor) : ∃ ids, ∀ c, Run.listTypes wanted c w = some (ids, w) := by
  cases wanted with
  | none => exact ⟨w.types.userTypes, fun _ => rfl⟩
  | some p =>
    refine ⟨w.types.userTypes.filter fun id => w.verdict (w.types.descriptor id) p, fun c => ?_⟩
    refine Run.bind_eq_some.mpr ⟨w, w, rfl, Run.select_eq_filter fun id hid => ?_⟩
    have hcontains := (Table.mem_keys_iff _ _).mp (List.mem_filter.mp hid).1
    exact Run.bind_eq_some.mpr ⟨w, w, rfl, (h id hcontains).isConvertible p c⟩

end World.Settles

/-! ## Boxes with live objects -/

/-- Of equal elements the first stays, in its place. -/
theorem eraseDups_spec {α : Type} [DecidableEq α] (l : List α) : l.eraseDups.Nodup ∧ l.eraseDups.Sublist l := by
  match l with
  | [] => exact ⟨.nil, .slnil⟩
  | x :: l =>
    have hshorter : (l.filter fun y => !y == x).length < (x :: l).length :=
      Nat.lt_succ_of_le (List.length_filter_le _ _)
    obtain ⟨hnodup, hsub⟩ := eraseDups_spec (l.filter fun y => !y == x)
    rw [List.eraseDups_cons]
    refine ⟨List.nodup_cons.mpr ⟨fun h => ?_, hnodup⟩, (hsub.trans List.filter_sublist).cons_cons x⟩
    have hne := (List.mem_filter.mp (List.mem_eraseDups.mp h)).2
    simp at hne
termination_by l.length
decreasing_by exact hshorter

/-- The classes of the live objects in boxes, in order. -/
def Box.liveClasses (args : List Box) : List ClassDecl := (args.filterMap Box.object?).map Object.cls

namespace World

/-- The world with the pointer type of a class whose node is cached, under the next number. -/
def enterPointer (w : World) (k : ClassDecl) : World :=
  (w.withTypes (w.types.enter ⟨.pointer k, (Ty.pointer k).name, w.registries.classes.find? k, none⟩)).note
    (.typeRegistered (Ty.pointer k).name ⟨w.types.next⟩)

/-- The class then has a number, and for other classes nothing changes. -/
theorem contains_enterPointer (w : World) (k l : ClassDecl) :
    (w.enterPointer k).types.byType.contains (.pointer l) = (k == l || w.types.byType.contains (.pointer l)) := by
  show (Table.find? (w.types.byType.insertNew (.pointer k) ⟨w.types.next⟩) (.pointer l)).isSome = _
  rw [Table.find?_insertNew]
  by_cases h : k = l <;> simp [h, Table.contains]

/-- The classes of the live objects whose pointer types have no number, each where it occurs first. -/
def missing (w : World) (args : List Box) : List ClassDecl :=
  ((Box.liveClasses args).filter fun k => !w.types.byType.contains (.pointer k)).eraseDups

variable {w : World} {args : List Box} {k : ClassDecl}

theorem mem_missing_iff : k ∈ w.missing args ↔
    k ∈ Box.liveClasses args ∧ w.types.byType.find? (.pointer k) = none := by
  simp [missing, Table.contains]

theorem missing_nodup (w : World) (args : List Box) : (w.missing args).Nodup := (eraseDups_spec _).1

theorem missing_sublist (w : World) (args : List Box) : (w.missing args).Sublist (Box.liveClasses args) :=
  (eraseDups_spec _).2.trans List.filter_sublist

/-- A box without an object has no part in it. -/
theorem missing_cons_of_none {b : Box} (hb : b.object? = none) : w.missing (b :: args) = w.missing args := by
  simp [missing, Box.liveClasses, hb]

theorem missing_cons_of_bound {b : Box} {o : Object} (hb : b.object? = some o)
    (h : w.types.byType.contains (.pointer o.cls) = true) : w.missing (b :: args) = w.missing args := by
  simp [missing, Box.liveClasses, hb, h]

/-- Once the type is entered, its class is missing no more. -/
theorem missing_cons_of_new {b : Box} {o : Object} (hb : b.object? = some o)
    (h : w.types.byType.contains (.pointer o.cls) = false) :
    w.missing (b :: args) = o.cls :: (w.enterPointer o.cls).missing args := by
  have hlive : Box.liveClasses (b :: args) = o.cls :: Box.liveClasses args := by simp [Box.liveClasses, hb]
  unfold missing
  rw [hlive, List.filter_cons_of_pos (by simp [h]), List.eraseDups_cons, List.filter_filter]
  congr 2
  refine List.filter_congr fun k _ => ?_
  rw [contains_enterPointer, Bool.not_or, Bool.beq_comm]

/-- Entering pointer types changes the table of types only. -/
theorem registries_foldl_enterPointer (ks : List ClassDecl) (w : World) :
    (ks.foldl enterPointer w).registries = { w.registries with types := (ks.foldl enterPointer w).types } := by
  induction ks generalizing w with
  | nil => rfl
  | cons k ks ih => rw [List.foldl_cons, ih]; rfl

end World

namespace Step

variable {w : World}

/-- Where the node is cached, a pointer type without a number is entered, and that is all. -/
theorem idOf_pointer_new {k : ClassDecl} {n : ClassNode} (hn : w.registries.classes.find? k = some n)
    (h : w.types.byType.find? (.pointer k) = none) : (idOf (.pointer k) w).2 = w.enterPointer k := by
  have hnode : nodeOf (.pointer k) w = (some n, w) := by
    simp only [nodeOf, Ty.cls?, bind_apply, node_of_cached hn, pure_apply]
  have henter := TypeTable.bindType_allocate (t := w.types) (e := ⟨.pointer k, (Ty.pointer k).name, some n, none⟩) h
  unfold World.enterPointer
  rw [hn, ← henter]
  simp only [idOf, bind_apply, get_apply, h, hnode, set_apply, note_apply, pure_apply]
  rfl

/-- Describing a live object of a class with a node enters its pointer type, if that has no number. -/
theorem describe_live_snd (hw : w.registries.Sound) (id : TypeId) {o : Object} (hk : w.registries.Knows o.cls) :
    (describe (.object id (some o)) w).2 =
      if w.types.byType.contains (.pointer o.cls) = true then w else w.enterPointer o.cls := by
  obtain ⟨n, hn⟩ := hk
  rw [(describe_identifies hw id o).1, node_of_cached hn]
  split
  · rename_i h
    obtain ⟨i, hi⟩ := (Table.contains_iff _ _).mp h
    rw [idOf_of_bound hi]
  · rename_i h
    exact idOf_pointer_new hn (Option.not_isSome_iff_eq_none.mp h)

/-- Describing a box without an object changes nothing. -/
theorem describe_snd_of_none {b : Box} (hb : b.object? = none) : (describe b w).2 = w := by
  cases b with
  | null => rfl
  | plain _ _ => rfl
  | object id target =>
    obtain rfl : target = none := hb
    rfl

/-- Describing boxes, the classes of whose objects have nodes, enters the pointer types that are
    missing, in order, and changes nothing else. -/
theorem typesOf_snd {args : List Box} (hw : w.registries.Sound)
    (hk : ∀ b ∈ args, ∀ o, b.object? = some o → w.registries.Knows o.cls) :
    (typesOf args w).2 = (w.missing args).foldl World.enterPointer w := by
  induction args generalizing w with
  | nil => rfl
  | cons b args ih =>
    have hv := Course.sound hw (isQuiet_describe b w hw)
    have hgrow := Course.grows hw (isQuiet_describe b w hw)
    have hrest := ih hv fun b' h o ho => (hk b' (List.mem_cons_of_mem _ h) o ho).mono hgrow
    rw [typesOf_cons]
    show (typesOf args (describe b w).2).2 = _
    rw [hrest]
    cases hb : b.object? with
    | none => rw [describe_snd_of_none hb, World.missing_cons_of_none hb]
    | some o =>
      obtain ⟨id, rfl⟩ : ∃ id, b = .object id (some o) := by
        cases b with
        | null => cases hb
        | plain _ _ => cases hb
        | object id target => exact ⟨id, congrArg (Box.object id) hb⟩
      rw [describe_live_snd hw id (hk _ (List.mem_cons_self ..) o rfl)]
      by_cases hbound : w.types.byType.contains (.pointer o.cls) = true
      · rw [if_pos hbound, World.missing_cons_of_bound hb hbound]
      · rw [if_neg hbound, World.missing_cons_of_new hb (Bool.eq_false_iff.mpr hbound), List.foldl_cons]

end Step

/-! ## Queries of a program -/

/-- The class of an object in a box that fits has a node. -/
theorem Box.Fits.knows {r : Registries} {b : Box} (hb : b.Fits r) {o : Object} (ho : b.object? = some o) :
    r.Knows o.cls := by
  cases hb with
  | null => cases ho
  | plain _ _ => cases ho
  | object _ _ hlive => exact (hlive o ho).2

/-- Without factories, the types that boxes are described by settle. -/
theorem World.Reached.settles_typesOf {w : World} (hw : w.Reached) (hf : ∀ id, w.registries.factories.find? id = none)
    {args : List Box} (hb : ∀ b ∈ args, b.Fits w.registries) :
    ∀ a ∈ (Step.typesOf args w).1, (Step.typesOf args w).2.Settles a := by
  obtain ⟨htest, hall⟩ := Step.presents_typesOf hw hb
  have hv := hw.leads htest.leads
  have hfactories := Registries.Quiet.factories (Step.isQuiet_typesOf args w hw.sound)
  intro a ha
  exact .of_describes hv.sound (hall.describes hv a ha) fun id => by rw [hfactories, hf]

end Multimethod
