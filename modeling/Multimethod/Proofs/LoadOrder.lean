/-
  Multimethod.Proofs.LoadOrder — matching does not depend on the order of loading.

  What is loaded asks for the numbers of types and registers converters. Which number a type
  gets depends on the order, and so does every key of the table of converters; but which
  types a converter joins does not (`joins_loaded`). Without further numbers and factories
  the type test answers by the types and by what is joined (`isConvertible_suits`), and the
  exact test by the types alone (`OfType.isExactly_iff`). So two worlds in which the same has
  been loaded answer alike, and select the functions at the same places
  (`matching_order_free`), though the descriptions of a type differ between them.
-/
import Multimethod.Proofs.Acceptance

namespace Multimethod

open Registries (Grows Course Quiet)

/-- The elements at the places that are marked. -/
def atPlaces {α : Type} (marks : List Bool) (l : List α) : List α := ((marks.zip l).filter Prod.fst).map Prod.snd

/-- One thing that is done when something is loaded: the number of a type is asked for, or a
    converter is registered. -/
inductive Loading where
  | type (t : Ty)
  | converter (c : Converter)

namespace Loading

def run : Loading → Step Unit
  | type t => do let _ ← Step.idOf t
  | converter c => Step.addConverter c

/-- The world after one loading after the other. -/
def all (ops : List Loading) (w : World) : World := ops.foldl (fun w o => (o.run w).2) w

/-- The loading registers a converter from type `s` to type `t`. -/
def Joins (s t : Ty) : Loading → Prop
  | type _ => False
  | converter c => c.source = s ∧ c.target = t

end Loading

/-- The world in which what the list says has been loaded, and nothing else. -/
def World.loaded (ops : List Loading) : World := Loading.all ops World.fresh

/-! ## What loading does -/

section

variable {w : World} {s t : Ty}

/-- A converter is put under the numbers of its types, which are given out first. -/
theorem Step.registries_addConverter (hw : w.registries.Sound) (c : Converter) :
    ∃ r i j, Quiet w.registries r ∧ r.types.Numbers c.source i ∧ r.types.Numbers c.target j ∧
      (addConverter c w).2.registries =
        { r with types := { r.types with converters := r.types.converters.insert (i, j) c } } := by
  have hs := isQuiet_typeId c.source w hw
  have hsound := Course.sound hw hs
  have ht := isQuiet_typeId c.target (typeId c.source w).2 hsound
  have hnum := (Course.grows hsound ht).numbers (typeId_spec c.source w)
  exact ⟨_, _, _, hs.trans ht, hnum, typeId_spec c.target _, rfl⟩

/-- A new converter joins its types, and takes nothing from the others: it stands in the place
    only of one between the same types. -/
theorem Registries.joins_insert {r : Registries} (hr : r.Sound) {c : Converter} {i j : TypeId}
    (hi : r.types.Numbers c.source i) (hj : r.types.Numbers c.target j) :
    Registries.Joins { r with types := { r.types with converters := r.types.converters.insert (i, j) c } } s t ↔
      r.Joins s t ∨ c.source = s ∧ c.target = t := by
  constructor
  · rintro ⟨key, c', hfind, hjoin⟩
    by_cases hkey : (i, j) = key
    · simp only [Table.find?_insert, if_pos hkey, Option.some.injEq] at hfind
      exact .inr (hfind ▸ hjoin)
    · simp only [Table.find?_insert, if_neg hkey] at hfind
      exact .inl ⟨key, c', hfind, hjoin⟩
  · intro h
    by_cases hsame : c.source = s ∧ c.target = t
    · exact ⟨(i, j), c, by simp only [Table.find?_insert, if_pos], hsame⟩
    · obtain ⟨⟨i', j'⟩, c', hfind, rfl, rfl⟩ := h.resolve_right hsame
      have hkey : ¬ (i, j) = (i', j') := by
        intro hkey
        obtain ⟨rfl, rfl⟩ := Prod.mk.inj hkey
        obtain ⟨hi', hj'⟩ := hr.converter hfind
        exact hsame ⟨hr.numbers_unique hi hi', hr.numbers_unique hj hj'⟩
      exact ⟨(i', j'), c', by simp only [Table.find?_insert, if_neg hkey]; exact hfind, rfl, rfl⟩

theorem Registries.Quiet.joins_iff {r r' : Registries} (h : Quiet r r') : r'.Joins s t ↔ r.Joins s t := by
  unfold Joins
  rw [h.converters]

/-- One loading joins the types that it says, keeps what was joined, and makes no factory. -/
theorem Loading.joins_run (hw : w.registries.Sound) (o : Loading) :
    ((o.run w).2.registries.Joins s t ↔ w.registries.Joins s t ∨ o.Joins s t) ∧
      (o.run w).2.registries.factories = w.registries.factories := by
  cases o with
  | type u =>
    have hquiet := Step.isQuiet_idOf u w hw
    exact ⟨hquiet.joins_iff.trans (iff_of_eq (or_false _)).symm, hquiet.factories⟩
  | converter c =>
    obtain ⟨r, i, j, hquiet, hi, hj, hregs⟩ := Step.registries_addConverter hw c
    have hregs : ((converter c).run w).2.registries = _ := hregs
    rw [hregs, Registries.joins_insert (Course.sound hw hquiet) hi hj, hquiet.joins_iff]
    exact ⟨Iff.rfl, hquiet.factories⟩

theorem Loading.leads (o : Loading) (w : World) : w.Leads (o.run w).2 := by
  cases o with
  | type t => exact .idOf w t
  | converter c => exact .addConverter w c

/-- After all loadings those types are joined that were before or that one of them says. -/
theorem Loading.joins_all (hw : w.Reached) (ops : List Loading) :
    (all ops w).Reached ∧ ((all ops w).registries.Joins s t ↔ w.registries.Joins s t ∨ ∃ o ∈ ops, o.Joins s t) ∧
      (all ops w).registries.factories = w.registries.factories := by
  induction ops generalizing w with
  | nil => exact ⟨hw, by simp [all], rfl⟩
  | cons o ops ih =>
    obtain ⟨hreached, hjoins, hfactories⟩ := ih (hw.leads (o.leads w))
    obtain ⟨hjoin, hfactory⟩ := joins_run (s := s) (t := t) hw.sound o
    refine ⟨hreached, hjoins.trans ?_, hfactories.trans hfactory⟩
    rw [hjoin, List.exists_mem_cons_iff, or_assoc]

end

namespace World

theorem reached_loaded (ops : List Loading) : (loaded ops).Reached :=
  (Loading.joins_all (s := .void) (t := .void) .refl ops).1

/-- What is joined does not depend on the order of loading. -/
theorem joins_loaded {ops ops' : List Loading} (h : ops.Perm ops') :
    (loaded ops).registries.Joins = (loaded ops').registries.Joins := by
  have hmem (s t : Ty) : (∃ o ∈ ops, o.Joins s t) ↔ ∃ o ∈ ops', o.Joins s t :=
    exists_congr fun o => and_congr_left fun _ => h.mem_iff
  funext s t
  refine propext ?_
  calc (loaded ops).registries.Joins s t
      ↔ fresh.registries.Joins s t ∨ ∃ o ∈ ops, o.Joins s t := (Loading.joins_all .refl ops).2.1
    _ ↔ fresh.registries.Joins s t ∨ ∃ o ∈ ops', o.Joins s t := by rw [hmem]
    _ ↔ (loaded ops').registries.Joins s t := (Loading.joins_all .refl ops').2.1.symm

/-- Loading makes no factory. -/
theorem factories_loaded (ops : List Loading) (id : TypeId) : (loaded ops).registries.factories.find? id = none := by
  have h := (Loading.joins_all (s := .void) (t := .void) .refl ops).2.2
  show (Loading.all ops fresh).registries.factories.find? id = none
  rw [h]; rfl

end World

/-! ## Tests by types -/

namespace Registries

variable {r : Registries} {s t : Ty} {a b : Descriptor}

/-- One type in signatures is exactly another when it is that type. -/
theorem OfType.isExactly_iff (hr : r.Sound) (ha : r.OfType s a) (hb : r.OfType t b) :
    a.isExactly b = true ↔ s = t := by
  -- types with a class have nodes, all others have not
  have node {t : Ty} {p : Descriptor} (hp : r.OfType t p) :
      (t.cls? = none ∧ p.node = none ∧ r.types.Numbers t p.id) ∨
        ∃ k n, t = .pointer k ∧ p.node = some n ∧ r.classes.find? k = some n := by
    by_cases ht : t = .any
    · subst ht
      obtain ⟨_, ⟨-, rfl⟩ | ⟨hne, -⟩, rfl⟩ := hp
      · exact .inl ⟨rfl, rfl, .inl ⟨rfl, rfl⟩⟩
      · exact absurd rfl hne
    obtain ⟨id, e, hid, he, rfl, rfl⟩ := hp.entry hr ht
    cases hcls : e.ty.cls? with
    | none => exact .inl ⟨rfl, hr.node_of_plain he hcls, .inr ⟨ht, hid⟩⟩
    | some k =>
      have hty := Ty.eq_pointer hcls
      obtain ⟨n, hn, hen⟩ := hr.node_of_pointer he hty
      exact .inr ⟨k, n, hty, hen, hn⟩
  rcases node ha with ⟨hs, hna, hia⟩ | ⟨k, n, rfl, hna, hkn⟩
  · rcases node hb with ⟨-, hnb, hib⟩ | ⟨l, m, rfl, hnb, -⟩
    · have hids : a.isExactly b = (a.id == b.id) := by simp [Descriptor.isExactly, Descriptor.isClass, hna, hnb]
      rw [hids, beq_iff_eq]
      exact ⟨fun h => hr.numbers_unique hia (h ▸ hib), fun h => hia.eq (h ▸ hib)⟩
    · refine ⟨fun h => ?_, fun h => ?_⟩
      · obtain ⟨n, hn, -⟩ := isExactly_of_node hnb h
        rw [hna] at hn; cases hn
      · rw [h] at hs; cases hs
  · rcases node hb with ⟨ht, hnb, -⟩ | ⟨l, m, rfl, hnb, hlm⟩
    · refine ⟨fun h => ?_, fun h => ?_⟩
      · rw [(isExactly_of_plain hnb h).1] at hna; cases hna
      · rw [← h] at ht; cases ht
    · have hnodes : a.isExactly b = n.same m := by
        simp [Descriptor.isExactly, Descriptor.isClass, Descriptor.sameNode, hna, hnb]
      rw [hnodes, Ty.pointer.injEq]
      refine ⟨hr.classes.eq_of_same hkn hlm, ?_⟩
      rintro rfl
      cases hkn.symm.trans hlm; exact n.same_refl

/-- All argument types are exactly the parameter types at their places. -/
theorem OfType.allExactly_iff (hr : r.Sound) {ss ts : List Ty} {types params : List Descriptor}
    (ha : List.Forall₂ r.OfType ss types) (hp : List.Forall₂ r.OfType ts params) :
    Descriptor.allExactly types params = true ↔ ∀ p ∈ ss.zip ts, p.1 = p.2 := by
  unfold Descriptor.allExactly
  induction ha generalizing ts params with
  | nil => simp
  | cons hst _ ih =>
    cases hp with
    | nil => simp
    | cons htp hrest =>
      simp only [List.zip_cons_cons, List.all_cons, Bool.and_eq_true, ih hrest, hst.isExactly_iff hr htp,
        List.forall_mem_cons]

end Registries

namespace Run

section

variable {w : World} (hw : w.Reached) (hf : ∀ id, w.registries.factories.find? id = none)
include hw hf

/-- Without factories the type test changes nothing, and answers by what is joined. -/
theorem isConvertible_suits {s t : Ty} {a b : Descriptor} (ha : w.registries.OfType s a) (hb : w.registries.OfType t b) :
    ∃ ans, (∀ c, isConvertible a b c w = some (ans, w)) ∧ (ans = true ↔ s.Suits w.registries.Joins t) := by
  obtain ⟨ans, hrun, hans⟩ := isConvertible_default hw.sound (hw.describes_ofType ha) (hw.describes_ofType hb)
    fun _ => hf a.id
  exact ⟨ans, hrun, hans.trans (ha.accepts_iff hw.sound hw.byType_map hb)⟩

theorem allConvertible_suits {ss ts : List Ty} {types params : List Descriptor}
    (ha : List.Forall₂ w.registries.OfType ss types) (hp : List.Forall₂ w.registries.OfType ts params) :
    ∃ ans, (∀ c, allConvertible types params c w = some (ans, w)) ∧
      (ans = true ↔ ∀ p ∈ ss.zip ts, p.1.Suits w.registries.Joins p.2) := by
  induction ha generalizing ts params with
  | nil => exact ⟨true, fun _ => rfl, by simp⟩
  | cons hst _ ih =>
    cases hp with
    | nil => exact ⟨true, fun _ => rfl, by simp⟩
    | cons htp hrest =>
      obtain ⟨ok, hok, hsuits⟩ := isConvertible_suits hw hf hst htp
      obtain ⟨ans, hrun, hans⟩ := ih hrest
      rw [List.zip_cons_cons, List.forall_mem_cons, ← hans, ← hsuits]
      refine ⟨ok && ans, fun c => bind_eq_some.mpr ⟨ok, w, hok c, ?_⟩, Bool.and_eq_true _ _ ▸ Iff.rfl⟩
      cases ok with
      | true => exact hrun c
      | false => rfl

end

end Run

/-! ## Selections by types -/

section

variable {α β : Type} {R : β → α → Prop} {q : β → Bool} {keys : List β} {l : List α}

theorem atPlaces_cons (m : Bool) (marks : List Bool) (x : α) (l : List α) :
    atPlaces (m :: marks) (x :: l) = if m then x :: atPlaces marks l else atPlaces marks l := by
  cases m <;> rfl

/-- A filter that goes by what stands at the same place of another list selects by place. -/
theorem filter_eq_atPlaces {p : α → Bool} (hR : List.Forall₂ R keys l) (h : ∀ k x, R k x → p x = q k) :
    l.filter p = atPlaces (keys.map q) l := by
  induction hR with
  | nil => rfl
  | @cons k x _ _ hkx _ ih => rw [List.filter_cons, List.map_cons, atPlaces_cons, h k x hkx, ih]

/-- So do tests that change nothing. -/
theorem Run.select_eq_atPlaces {test : α → Run Bool} {c : Caller} {w : World} (hR : List.Forall₂ R keys l)
    (h : ∀ k x, R k x → test x c w = some (q k, w)) : select test l c w = some (atPlaces (keys.map q) l, w) := by
  induction hR with
  | nil => rfl
  | @cons k x keys l hkx _ ih =>
    refine bind_eq_some.mpr ⟨q k, w, h k x hkx, bind_eq_some.mpr ⟨_, w, ih, ?_⟩⟩
    rw [List.map_cons, atPlaces_cons]; rfl

end

namespace Dispatcher

open Classical

variable {n : Nat} {w : World} {sigs : List (List Ty)} {args : List Ty} {d : Dispatcher n} {types : List Descriptor}

/-- The functions have the parameter types that the lists say. -/
def Has (r : Registries) (sigs : List (List Ty)) (d : Dispatcher n) : Prop :=
  List.Forall₂ (fun ts f => List.Forall₂ r.OfType ts f.params) sigs d.functions

/-- The places at which each argument type fits the parameter type at its place; none if there
    are more argument types than parameters. -/
noncomputable def places (n : Nat) (fits : Ty → Ty → Prop) (args : List Ty) (sigs : List (List Ty)) : List Bool :=
  sigs.map fun ts => decide (args.length ≤ n ∧ ∀ p ∈ args.zip ts, fits p.1 p.2)

theorem exactly_places (hw : w.registries.Sound) (hd : d.Has w.registries sigs)
    (ha : List.Forall₂ w.registries.OfType args types) :
    (d.exactly types w).1 = atPlaces (places n Eq args sigs) d.functions := by
  rw [Run.exactly_fst]
  refine filter_eq_atPlaces hd ?_
  intro ts f hf
  rw [← ha.length_eq, Bool.eq_iff_iff, Bool.and_eq_true, Registries.OfType.allExactly_iff hw ha hf,
    decide_eq_true_iff, @decide_eq_true_iff _ (_)]

theorem convertible_places (hw : w.Reached) (hf : ∀ id, w.registries.factories.find? id = none)
    (hd : d.Has w.registries sigs) (ha : List.Forall₂ w.registries.OfType args types) (c : Caller) :
    ∃ v, d.convertible types c w =
      some (atPlaces (places n (Ty.Suits w.registries.Joins) args sigs) d.functions, v) := by
  by_cases hn : n < args.length
  · have hnone : atPlaces (places n (Ty.Suits w.registries.Joins) args sigs) d.functions = [] := by
      rw [← List.filter_false d.functions]
      refine (filter_eq_atPlaces hd fun ts f _ => ?_).symm
      exact (decide_eq_false fun h => absurd h.1 (by omega)).symm
    unfold convertible
    rw [← ha.length_eq, if_pos hn, hnone]
    exact ⟨_, rfl⟩
  · have hle : args.length ≤ n := by omega
    refine ⟨_, Run.convertible_of_select (v := w) (ha.length_eq ▸ hle) (Run.select_eq_atPlaces hd fun ts f hf' => ?_)⟩
    obtain ⟨ans, hrun, hans⟩ := Run.allConvertible_suits hw hf ha hf'
    have hmark : ans = decide (args.length ≤ n ∧ ∀ p ∈ args.zip ts, p.1.Suits w.registries.Joins p.2) := by
      rw [Bool.eq_iff_iff, hans, decide_eq_true_iff]
      exact ⟨fun h => ⟨hle, h⟩, And.right⟩
    exact hmark ▸ hrun c

end Dispatcher

/-- After the same has been loaded in two orders, types convert to each other in both worlds or
    in neither, however often a type was given another number; and dispatchers whose functions
    have the same parameter types select the functions at the same places for the same argument
    types, exactly and by conversion. -/
theorem World.matching_order_free {ops ops' : List Loading} (h : ops.Perm ops') :
    (∀ s t a b a' b', (loaded ops).registries.OfType s a → (loaded ops).registries.OfType t b →
      (loaded ops').registries.OfType s a' → (loaded ops').registries.OfType t b' →
      ∃ ans, ∀ depth, (Run.isConvertible a b).atDepth depth (loaded ops) = some (ans, loaded ops) ∧
        (Run.isConvertible a' b').atDepth depth (loaded ops') = some (ans, loaded ops')) ∧
    ∀ (n : Nat) (d d' : Dispatcher n) (sigs : List (List Ty)) (args : List Ty) (types types' : List Descriptor),
      d.Has (loaded ops).registries sigs → d'.Has (loaded ops').registries sigs →
      List.Forall₂ (loaded ops).registries.OfType args types →
      List.Forall₂ (loaded ops').registries.OfType args types' →
      ∃ exact convertible : List Bool, exact.length = d.functions.length ∧ convertible.length = d.functions.length ∧
        (d.exactly types (loaded ops)).1 = atPlaces exact d.functions ∧
        (d'.exactly types' (loaded ops')).1 = atPlaces exact d'.functions ∧
        ∀ depth, (∃ v, (d.convertible types).atDepth depth (loaded ops) = some (atPlaces convertible d.functions, v)) ∧
          ∃ v, (d'.convertible types').atDepth depth (loaded ops') = some (atPlaces convertible d'.functions, v) := by
  have hw := reached_loaded ops
  have hw' := reached_loaded ops'
  have hjoins := joins_loaded h
  refine ⟨fun s t a b a' b' ha hb ha' hb' => ?_, fun n d d' sigs args types types' hd hd' ha ha' => ?_⟩
  · obtain ⟨ans, hrun, hans⟩ := Run.isConvertible_suits hw (factories_loaded ops) ha hb
    obtain ⟨ans', hrun', hans'⟩ := Run.isConvertible_suits hw' (factories_loaded ops') ha' hb'
    rw [← hjoins, ← hans] at hans'
    rw [Bool.eq_iff_iff.mpr hans'] at hrun'
    exact ⟨ans, fun depth => ⟨hrun _, hrun' _⟩⟩
  · have hlength (fits : Ty → Ty → Prop) : (Dispatcher.places n fits args sigs).length = d.functions.length := by
      rw [Dispatcher.places, List.length_map, hd.length_eq]
    refine ⟨_, _, hlength Eq, hlength (Ty.Suits (loaded ops).registries.Joins),
      Dispatcher.exactly_places hw.sound hd ha, Dispatcher.exactly_places hw'.sound hd' ha', fun depth => ?_⟩
    have hplaces' := Dispatcher.convertible_places hw' (factories_loaded ops') hd' ha' (Script.run depth)
    rw [← hjoins] at hplaces'
    exact ⟨Dispatcher.convertible_places hw (factories_loaded ops) hd ha _, hplaces'⟩

namespace World

def celsius : Ty := .custom ⟨"Celsius", "Celsius", .real 0⟩

def kelvin : Ty := .custom ⟨"Kelvin", "Kelvin", .real 0⟩

/-- Two types of temperatures and the converters between them. -/
def temperatures : List Loading :=
  [.type celsius, .type kelvin, .converter ⟨celsius, kelvin, fun _ => .decline⟩,
    .converter ⟨kelvin, celsius, fun _ => .decline⟩]

/-- When they are loaded backwards, each has the number that the other one has otherwise. Either
    way the first converts to the second, and of a function for each, the first one is for
    exactly the first. -/
theorem matching_order_free_temperatures :
    let c := (loaded temperatures).registries.types.descriptor ⟨1024⟩
    let k := (loaded temperatures).registries.types.descriptor ⟨1025⟩
    let c' := (loaded temperatures.reverse).registries.types.descriptor ⟨1025⟩
    let k' := (loaded temperatures.reverse).registries.types.descriptor ⟨1024⟩
    let d : Dispatcher 1 := ⟨[⟨none, [c], .wild⟩, ⟨none, [k], .wild⟩]⟩
    let d' : Dispatcher 1 := ⟨[⟨none, [c'], .wild⟩, ⟨none, [k'], .wild⟩]⟩
    (∀ depth, (Run.isConvertible c k).atDepth depth (loaded temperatures) = some (true, loaded temperatures) ∧
      (Run.isConvertible c' k').atDepth depth (loaded temperatures.reverse) =
        some (true, loaded temperatures.reverse)) ∧
      ∃ marks, (d.exactly [c] (loaded temperatures)).1 = atPlaces marks d.functions ∧
        (d'.exactly [c'] (loaded temperatures.reverse)).1 = atPlaces marks d'.functions ∧
        (d.exactly [c] (loaded temperatures)).1.map Function.params = [[c]] := by
  intro c k c' k' d d'
  have described {r : Registries} {t : Ty} {i : TypeId} (ht : t ≠ .any) (hi : r.types.byType.find? t = some i) :
      r.OfType t (r.types.descriptor i) := ⟨i, .inr ⟨ht, hi⟩, rfl⟩
  have hc : (loaded temperatures).registries.OfType celsius c :=
    described (by decide) (by rw [loaded, fresh_eq]; decide)
  have hk : (loaded temperatures).registries.OfType kelvin k :=
    described (by decide) (by rw [loaded, fresh_eq]; decide)
  have hc' : (loaded temperatures.reverse).registries.OfType celsius c' :=
    described (by decide) (by rw [loaded, fresh_eq]; decide)
  have hk' : (loaded temperatures.reverse).registries.OfType kelvin k' :=
    described (by decide) (by rw [loaded, fresh_eq]; decide)
  have hd : d.Has (loaded temperatures).registries [[celsius], [kelvin]] :=
    .cons (.cons hc .nil) (.cons (.cons hk .nil) .nil)
  have hd' : d'.Has (loaded temperatures.reverse).registries [[celsius], [kelvin]] :=
    .cons (.cons hc' .nil) (.cons (.cons hk' .nil) .nil)
  obtain ⟨htest, hselect⟩ := matching_order_free (List.reverse_perm temperatures).symm
  obtain ⟨ans, hans⟩ := htest celsius kelvin c k c' k' hc hk hc' hk'
  obtain ⟨marks, _, -, -, hexact, hexact', -⟩ := hselect 1 d d' _ _ _ _ hd hd' (.cons hc .nil) (.cons hc' .nil)
  have htrue : ((Run.isConvertible c k).atDepth 0 (loaded temperatures)).map Prod.fst = some true := by
    simp only [c, k, loaded, fresh_eq]
    decide
  rw [(hans 0).1] at htrue
  obtain rfl : ans = true := Option.some.inj htrue
  refine ⟨hans, marks, hexact, hexact', ?_⟩
  simp only [d, c, k, loaded, fresh_eq]
  decide

end World

end Multimethod
