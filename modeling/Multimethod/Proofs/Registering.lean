/-
  Multimethod.Proofs.Registering — what the registration of a converter changes.

  A converter between two types without class is run for its pair, and whatever it answers
  is what a content of its source type is read as, converted to and accepted for
  (`Converter.Serves`). That stays so until another converter is registered for the pair,
  which the journal tells. For any other pair of registered types the table does what it did:
  it keeps the box, refuses, or runs the very converter it ran (`TypeTable.route`). So what
  comes of a conversion is the same, too, where that converter is apart from the
  registries (`World.Reached.addConverter_own_pair`). A converter that asks them may notice
  that others were registered (`World.addConverter_noticed`).
-/
import Multimethod.Proofs.Acceptance
import Multimethod.Proofs.Identity
import Multimethod.Proofs.Records

namespace Multimethod

open Registries (Grows Course)

/-- Values of the type are contents. -/
def Ty.Plain (t : Ty) : Prop := t.cls? = none ∧ t ≠ .void ∧ t ≠ .any

theorem Ty.Plain.eq_ty {t : Ty} (h : t.Plain) : ∃ z : Content, t = z.ty := by
  rcases Ty.default_cases h.1 with ⟨hvoid, -⟩ | ⟨hany, -⟩ | ⟨z, hz, -⟩
  · exact absurd hvoid h.2.1
  · exact absurd hany h.2.2
  · exact ⟨z, hz.symm⟩

theorem World.Reached.good {w : World} (hw : w.Reached) : Discipline.free.Good w.registries := by
  obtain ⟨held, hs⟩ := World.Leads.session hw []
  exact hs.good.1

/-! ## The pair of a converter -/

/-- In the world `v` the converter is the one for its types, whose numbers are `i` and `j`: at any
    depth a content of the source type, once in a box, is read as what the converter answers
    and converted to the box of that, and without a factory for `i` the one type converts to
    the other, unless that is the type of maps. -/
structure Converter.Serves (k : Converter) (i j : TypeId) (v : World) : Prop where
  read : ∀ x : Content, x.ty = k.source → ∀ depth,
    (Run.read (Step.box (.plain x) v).1 k.target).atDepth depth (Step.box (.plain x) v).2 =
      (k.answer x).atDepth depth v
  readOr : ∀ x : Content, x.ty = k.source → ∀ depth,
    (Run.readOr (Step.box (.plain x) v).1 k.target).atDepth depth (Step.box (.plain x) v).2 =
      ((k.answer x).atDepth depth v).map fun p => (p.1.getD k.target.default, p.2)
  convert : ∀ x : Content, x.ty = k.source → ∀ depth,
    (Run.convert (Step.box (.plain x) v).1 j).atDepth depth (Step.box (.plain x) v).2 =
      ((k.answer x).atDepth depth v).map fun p => ((Step.boxAnswer p.1 p.2).1.getD .null, (Step.boxAnswer p.1 p.2).2)
  convertible : k.target ≠ .map → v.registries.factories.find? i = none → ∀ depth,
    (Run.isConvertible (Step.descriptorOf k.source v).1 (Step.descriptorOf k.target v).1).atDepth depth v =
      some (true, v)

namespace Run

variable {c : Caller} {v : World} {i j : TypeId} {k : Converter} {x : Content}

/-- An answer of a converter of the table, of a plain type, is boxed under the wanted number. -/
theorem boxAnswer_of_answer (hv : v.Reached) (hc : Keeps .free c) (hk : v.types.converters.find? (i, j) = some k)
    (hj : v.types.Numbers k.target j) {z : Content} (hz : k.target = z.ty) {y : Value} {u : World}
    (h : k.answer x c v = some (some y, u)) :
    ∃ z', y = .plain z' ∧ z'.ty = z.ty ∧ Step.boxAnswer (some y) u = (some (.plain j z'), u) := by
  obtain ⟨hcourse, hy⟩ := ensures_answer hc hv.good (hv.good.stores.converter hk) (fun h => h.elim) _ _ h
  obtain ⟨hty, -⟩ := hy y rfl
  obtain ⟨z', rfl⟩ := Value.eq_plain (hty.trans hz)
  have hz' : z'.ty = k.target := hty
  have hnumber := (Course.grows hv.sound hcourse).numbers (hz' ▸ hj : v.types.Numbers z'.ty j)
  refine ⟨z', rfl, hty.trans hz, ?_⟩
  simp only [Step.boxAnswer, Step.bind_apply, Step.box_content hnumber, Step.pure_apply]

end Run

/-- The converter that the table has for two plain types serves them. -/
theorem Converter.serves {k : Converter} {i j : TypeId} {v : World} (hv : v.Reached) (hs : k.source.Plain)
    (ht : k.target.Plain) (hne : k.source ≠ k.target) (hi : v.types.Numbers k.source i) (hj : v.types.Numbers k.target j)
    (hk : v.types.converters.find? (i, j) = some k) : k.Serves i j v := by
  obtain ⟨z, hz⟩ := ht.eq_ty
  have hbox : ∀ x : Content, x.ty = k.source → Step.box (.plain x) v = (.plain i x, v) := fun x hx =>
    Step.box_content (hx ▸ hi)
  have htable : ∀ x : Content, x.ty = k.source → ∀ c, Run.tableConvert (.plain i x) j c v =
      (k.answer x c v).bind fun p => some (Step.boxAnswer p.1 p.2) := fun x hx c => by
    have hother := Run.other_of_numbers hv.sound (hx ▸ hi : v.types.Numbers x.ty i) hj (hx ▸ hne)
    rw [Run.tableConvert_numbered hv.sound (hx ▸ hi) hother, hk]
  have hread : ∀ x : Content, x.ty = k.source → ∀ depth,
      Run.read (.plain i x) k.target (Script.run depth) v = k.answer x (Script.run depth) v := fun x hx depth => by
    have hc : Run.Keeps .free (Script.run depth) := Run.keeps_run .free depth
    rw [hz, Run.read_other z (fun h => hne (hx.symm.trans (h.trans hz.symm))), Step.typeId_of_numbers (hz ▸ hj), htable x hx]
    cases hans : k.answer x (Script.run depth) v with
    | none => rfl
    | some p =>
      obtain ⟨o, u⟩ := p
      cases o with
      | none => rfl
      | some y =>
        obtain ⟨z', rfl, hz', hboxed⟩ := Run.boxAnswer_of_answer hv hc hk hj hz hans
        have hdown : (Box.plain j z').downcast z.ty = some z' := if_pos hz'
        simp only [Option.bind_some, hboxed, hdown, Option.map_some]
  refine ⟨fun x hx depth => ?_, fun x hx depth => ?_, fun x hx depth => ?_, fun hmap hf depth => ?_⟩
  · rw [hbox x hx]; exact hread x hx depth
  · unfold Run.atDepth
    rw [hbox x hx, Run.readOr_eq, hread x hx depth]
    cases k.answer x (Script.run depth) v <;> rfl
  · unfold Run.atDepth
    rw [hbox x hx, Run.convert_content, htable x hx]
    cases k.answer x (Script.run depth) v <;> rfl
  · have ha : v.registries.OfType k.source (v.types.descriptor i) := ⟨i, hi, rfl⟩
    have hb : v.registries.OfType k.target (v.types.descriptor j) := ⟨j, hj, rfl⟩
    have haccepts : v.registries.Accepts (v.types.descriptor i) (v.types.descriptor j) :=
      (ha.accepts_iff hv.sound hv.byType_map hb).mpr (.converter hs.1 hs.2.1 hs.2.2 hmap ⟨(i, j), k, hk, rfl, rfl⟩)
    obtain ⟨ans, hrun, hans⟩ := Run.isConvertible_default hv.sound (hv.describes_ofType ha) (hv.describes_ofType hb)
      fun _ => by rw [TypeTable.descriptor_id]; exact hf
    rw [Step.descriptorOf_of_numbers hi, Step.descriptorOf_of_numbers hj]
    exact (hrun _).trans (by rw [hans.mpr haccepts])

/-! ## The other pairs -/

/-- How the table converts from one number to another: it keeps the box, refuses, or runs a
    converter. -/
inductive TypeTable.Route where
  | kept
  | refused
  | run (k : Converter)

/-- The route between two numbers. -/
def TypeTable.route (t : TypeTable) (own wanted : TypeId) : Route :=
  if own = wanted ∨ t.sameType own wanted = true then .kept
  else match t.converters.find? (own, wanted) with
    | none => .refused
    | some k => .run k

/-- A converter on a route is the table's for the two numbers. -/
theorem TypeTable.find?_of_route {t : TypeTable} {own wanted : TypeId} {k : Converter}
    (h : t.route own wanted = .run k) : t.converters.find? (own, wanted) = some k := by
  unfold route at h
  split at h
  · cases h
  · split at h
    · cases h
    · rename_i hfind
      cases h; exact hfind

/-- Takes a box along a route. -/
def TypeTable.Route.follow (b : Box) : Route → Run (Option Box)
  | kept => return some b
  | refused => return none
  | run k => Run.applyConverter k b

/-- The table takes a box along the route from the number of the box's type. -/
theorem Run.tableConvert_route {b : Box} {own : Descriptor} {w v : World} (h : Step.describe b w = (own, v))
    (wanted : TypeId) (c : Caller) :
    tableConvert b wanted c w = (v.types.route own.id wanted).follow b c v := by
  rw [tableConvert_eq h]
  unfold TypeTable.route
  split
  · rfl
  · cases v.types.converters.find? (own.id, wanted) <;> rfl

/-! ### Scripts apart from the registries -/

/-- The action makes an object or counts. -/
def Action.Apart : Action → Prop
  | .allocate _ | .tick _ => True
  | _ => False

/-- The script neither asks nor changes the registries: it computes, makes objects and counts. -/
def Script.Apart : Script → Prop
  | done _ | decline => True
  | act a next => a.Apart ∧ ∀ x, (next x).Apart
  | addConverter _ _ _ _ | setMaker _ _ _ | addFactory _ _ _ => False

/-- The converter of the route, if there is one, is apart from the registries. -/
def TypeTable.Route.Apart (r : Route) : Prop := ∀ k, r = .run k → ∀ x, (k.run x).Apart

/-- The builtin converters are. -/
theorem TypeTable.apart_fresh (own wanted : TypeId) : (World.fresh.types.route own wanted).Apart := by
  intro k hk x
  obtain ⟨cs, hfresh, hbuiltin⟩ := Registries.fresh_types
  have hfind := find?_of_route hk
  rw [World.types, hfresh] at hfind
  obtain ⟨s, t, rfl, -⟩ := hbuiltin hfind
  simp only [builtinConverter]
  split <;> trivial

/-- The same counters and objects with other registries and another journal. -/
def World.recast (w : World) (r : Registries) (l : List Event) : World := { w with registries := r, journal := l }

namespace Run

variable {r : Registries} {l : List Event} {w : World} {depth : Nat}

/-- What an operation gives when calls may nest `depth` deep, without the world after it. -/
def outcome {α : Type} (depth : Nat) (r : Run α) (w : World) : Option α := (r.atDepth depth w).map Prod.fst

/-- What is made of outcomes is alike if they are. -/
theorem outcome_map_congr {α β : Type} {r : Run α} (g : α → β) {u : World} (h : r.outcome depth u = r.outcome depth w) :
    (do return g (← r) : Run β).outcome depth u = (do return g (← r) : Run β).outcome depth w := by
  have hmap : ∀ w : World, (do return g (← r) : Run β).outcome depth w = (r.outcome depth w).map g := fun w => by
    unfold outcome atDepth
    rw [bind_apply]
    cases r (Script.run depth) w <;> rfl
  rw [hmap, hmap, h]

/-- Reading a box as a type with one number comes out alike if the table's conversion does. -/
theorem outcome_read {u : World} (hw : w.registries.Sound) (hu : u.registries.Sound) {b : Box} {t : Ty} {wanted : TypeId}
    (ht : w.types.Numbers t wanted) (ht' : u.types.Numbers t wanted)
    (h : (tableConvert b wanted).outcome depth u = (tableConvert b wanted).outcome depth w) :
    (read b t).outcome depth u = (read b t).outcome depth w := by
  cases hcls : t.cls? with
  | some k =>
    obtain rfl := Ty.eq_pointer hcls
    unfold outcome atDepth
    cases hb : b.object? with
    | none => rw [read_pointer_of_none hb, read_pointer_of_none hb]; rfl
    | some o =>
      rw [read_pointer_of_object hb, read_pointer_of_object hb, Step.pointTo_fst hu, Step.pointTo_fst hw]; rfl
  | none =>
    rcases Ty.default_cases hcls with ⟨rfl, -⟩ | ⟨rfl, -⟩ | ⟨z, rfl, -⟩
    · rfl
    · rfl
    cases b with
    | null => cases z <;> rfl
    | object id target => unfold outcome atDepth; rw [read_object, read_object]; rfl
    | plain id x =>
      by_cases hx : x.ty = z.ty
      · unfold outcome atDepth
        rw [← hx, read_content, read_content]; rfl
      · have hread : ∀ v : World, v.types.Numbers z.ty wanted → (read (.plain id x) z.ty).outcome depth v =
            (do return ((← tableConvert (.plain id x) wanted).bind (·.downcast z.ty)).map .plain :
              Run (Option Value)).outcome depth v := fun v hv => by
          unfold outcome atDepth
          rw [read_other z hx, Step.typeId_of_numbers hv]; rfl
        rw [hread u ht', hread w ht]
        exact outcome_map_congr (fun o : Option Box => (o.bind (·.downcast z.ty)).map Value.plain) h

/-- A script apart from the registries goes the same way whatever they are. -/
theorem follow_apart {s : Script} (hs : s.Apart) (c : Caller) (w : World) (r : Registries) (l : List Event) :
    follow s c (w.recast r l) = (follow s c w).map fun p => (p.1, p.2.recast r l) := by
  induction s generalizing w with
  | done v => rfl
  | decline => rfl
  | act a next ih =>
    obtain ⟨ha, hnext⟩ := hs
    cases a with
    | allocate i => exact ih _ (hnext _) { w with objects := w.objects + 1 }
    | tick n => exact ih _ (hnext _) (Step.tick n w).2
    | _ => exact ha.elim
  | addConverter _ _ _ _ _ _ => exact hs.elim
  | setMaker _ _ _ _ _ => exact hs.elim
  | addFactory _ _ _ _ _ => exact hs.elim

theorem run_apart {s : Script} (hs : s.Apart) (depth : Nat) (w : World) (r : Registries) (l : List Event) :
    Script.run depth s (w.recast r l) = (Script.run depth s w).map fun p => (p.1, p.2.recast r l) := by
  cases depth with
  | zero => rfl
  | succ depth => exact follow_apart hs _ w r l

theorem answer_apart {k : Converter} {x : Content} (hk : (k.run x).Apart) (depth : Nat) (w : World) (r : Registries)
    (l : List Event) :
    k.answer x (Script.run depth) (w.recast r l) =
      (k.answer x (Script.run depth) w).map fun p => (p.1, p.2.recast r l) := by
  unfold Converter.answer
  rw [bind_apply, bind_apply]
  show (Script.run depth (k.run x) (w.recast r l)).bind _ = ((Script.run depth (k.run x) w).bind _).map _
  rw [run_apart hk]
  cases Script.run depth (k.run x) w with
  | none => rfl
  | some p =>
    obtain ⟨o, u⟩ := p
    cases o with
    | none => rfl
    | some y =>
      simp only [Option.map_some, Option.bind_some]
      split <;> rfl

/-- It leaves the registries as they were. -/
theorem registries_answer {k : Converter} {x : Content} (hk : (k.run x).Apart) {o : Option Value} {u : World}
    (h : k.answer x (Script.run depth) w = some (o, u)) : u.registries = w.registries := by
  have hsame := answer_apart hk depth w w.registries w.journal
  rw [show w.recast w.registries w.journal = w from rfl, h] at hsame
  exact congrArg (fun p => p.2.registries) (Option.some.inj hsame)

theorem ty_of_answer {k : Converter} {x : Content} {c : Caller} {y : Value} {u : World}
    (h : k.answer x c w = some (some y, u)) : y.ty = k.target := by
  obtain ⟨o, v, -, h⟩ := bind_eq_some.mp h
  cases o with
  | none => cases h
  | some z =>
    dsimp only at h
    split at h
    · cases h; assumption
    · cases h

end Run

/-- A value of a type with one number in two worlds has one box. -/
theorem Step.box_fst_of_numbers {w u : World} {y : Value} {i : TypeId} (hw : w.types.Numbers y.ty i)
    (hu : u.types.Numbers y.ty i) : (box y w).1 = (box y u).1 := by
  cases y with
  | unit => rfl
  | any b => rfl
  | plain z => rw [box_content hw, box_content hu]
  | pointer h => rw [box_handle hw, box_handle hu]

/-! ### Worlds with more types -/

/-- Where the class of an object and its pointer type are known, the object's box is described from
    the tables. -/
theorem Step.describe_known {w : World} {o : Object} {n : ClassNode} {i : TypeId} (hn : node o.cls w = (n, w))
    (hi : idOf (.pointer n.decl) w = (i, w)) (id : TypeId) :
    describe (.object id (some o)) w =
      (⟨(w.types.byClass.find? n.serial).getD i,
        (w.types.descriptor ((w.types.byClass.find? n.serial).getD i)).name, some n⟩, w) := by
  simp only [describe, highestId, typeId, bind_apply, hn, hi, get_apply, pure_apply]

/-- From `w` to `u` no class and no pointer type was registered, and neither counters nor objects
    changed. -/
structure World.Widens (w u : World) : Prop where
  grows : Grows w.registries u.registries
  classes : u.registries.classes = w.registries.classes
  byClass : u.types.byClass = w.types.byClass
  counters : u.counters = w.counters
  objects : u.objects = w.objects

namespace World.Widens

variable {w v u : World}

theorem refl (w : World) : w.Widens w := ⟨.refl _, rfl, rfl, rfl, rfl⟩

theorem trans (h : w.Widens v) (k : v.Widens u) : w.Widens u :=
  ⟨h.grows.trans k.grows, k.classes.trans h.classes, k.byClass.trans h.byClass, k.counters.trans h.counters,
    k.objects.trans h.objects⟩

/-- The number of a type without class. -/
theorem typeId (hw : w.registries.Sound) {t : Ty} (ht : t.Plain) : w.Widens (Step.typeId t w).2 := by
  have hgrow := Course.grows hw (Step.isQuiet_typeId t w hw)
  rw [Step.typeId_eq_idOf ht.2.2] at hgrow ⊢
  cases hb : w.types.byType.find? t with
  | some id => rw [Step.idOf_of_bound hb]; exact refl w
  | none =>
    have hnode : Step.nodeOf t w = (none, w) := by
      unfold Step.nodeOf
      rw [ht.1]; rfl
    have hworld : (Step.idOf t w).2 = (w.withTypes ((w.types.allocate ⟨t, t.name, none, none⟩).2.bindType t
        (w.types.allocate ⟨t, t.name, none, none⟩).1)).note
          (.typeRegistered t.name (w.types.allocate ⟨t, t.name, none, none⟩).1) := by
      simp only [Step.idOf, Step.bind_apply, Step.get_apply, hb, hnode, Step.set_apply, Step.note_apply, Step.pure_apply]
    rw [hworld] at hgrow ⊢
    exact ⟨hgrow, rfl, rfl, rfl, rfl⟩

/-- A converter between types without class, which is put under their numbers. -/
theorem addConverter (hw : w.registries.Sound) {k : Converter} (hs : k.source.Plain) (ht : k.target.Plain) :
    w.Widens (Step.addConverter k w).2 ∧ ∃ i j, (Step.addConverter k w).2.types.Numbers k.source i ∧
      (Step.addConverter k w).2.types.Numbers k.target j ∧
      (Step.addConverter k w).2.types.converters = w.types.converters.insert (i, j) k := by
  have hv := Course.sound hw (Step.isQuiet_typeId k.source w hw)
  have hquiet := Step.isQuiet_typeId k.target _ hv
  have hnumbers := (typeId hw hs).trans (typeId hv ht)
  have hconverters : (Step.typeId k.target (Step.typeId k.source w).2).2.types.converters = w.types.converters :=
    Registries.Quiet.converters ((Step.isQuiet_typeId k.source w hw).trans hquiet)
  have hcourse : Course (fun _ _ => True) w.registries (Step.addConverter k w).2.registries :=
    Step.course_addConverter hw fun _ => trivial
  have hgrow := Course.grows hw hcourse
  refine ⟨⟨hgrow, hnumbers.classes, hnumbers.byClass, hnumbers.counters, hnumbers.objects⟩,
    (Step.typeId k.source w).1, (Step.typeId k.target (Step.typeId k.source w).2).1, ?_, ?_, ?_⟩
  · exact (Course.grows hv hquiet).numbers (Step.typeId_spec k.source w)
  · exact Step.typeId_spec k.target (Step.typeId k.source w).2
  · rw [← hconverters]; rfl

variable (h : w.Widens u)
include h

/-- Registered numbers are of one type in the end if they were before. -/
theorem sameType {a b : TypeId} (ha : w.types.entries.contains a = true) (hb : w.types.entries.contains b = true) :
    u.types.sameType a b = w.types.sameType a b := by
  obtain ⟨e, he⟩ := (Table.contains_iff _ _).mp ha
  obtain ⟨f, hf⟩ := (Table.contains_iff _ _).mp hb
  obtain ⟨e', he', hety, -⟩ := h.grows.entry he
  obtain ⟨f', hf', hfty, -⟩ := h.grows.entry hf
  simp only [TypeTable.sameType, he, hf, he', hf', hety, hfty]

/-- A box whose type is registered is described as before. -/
theorem describe (hw : w.registries.Sound) {b : Box} {own : Descriptor} (hb : Step.describe b w = (own, w))
    (hown : w.types.entries.contains own.id = true) : Step.describe b u = (own, u) := by
  obtain ⟨e, he⟩ := (Table.contains_iff _ _).mp hown
  have hdescriptor := h.grows.descriptor he
  have kept : ∀ id, w.types.descriptor id = own → u.types.descriptor id = own := fun id hid => by
    have hid' : own.id = id := by rw [← hid, TypeTable.descriptor_id]
    rw [← hid', hdescriptor, hid', hid]
  cases b with
  | null => cases hb; rfl
  | plain id x => exact Prod.ext (kept id (congrArg Prod.fst hb)) rfl
  | object id target =>
    cases target with
    | none => exact Prod.ext (kept id (congrArg Prod.fst hb)) rfl
    | some o =>
      obtain ⟨-, hidentifies⟩ := Step.describe_identifies hw id o
      rw [hb] at hidentifies
      obtain ⟨n, -, hn⟩ := hidentifies.node
      obtain ⟨i, hi⟩ := hidentifies.registered
      have hcached : w.registries.classes.find? o.cls = some n := by
        have hfind := Step.find?_node o.cls w
        rwa [hn] at hfind
      have hdecl : n.decl = o.cls := hw.classes.decl hcached
      have hbound : w.types.byType.find? (.pointer n.decl) = some i := by
        have hspec := Step.idOf_spec (.pointer o.cls) w
        rwa [hi, ← hdecl] at hspec
      have hbefore := Step.describe_known hn (Step.idOf_of_bound hbound) id
      have hafter := Step.describe_known (w := u) (Step.node_of_cached (h.classes ▸ hcached))
        (Step.idOf_of_bound (h.grows.byType hbound)) id
      rw [hb] at hbefore
      have hnumber : own.id = (w.types.byClass.find? n.serial).getD i := congrArg (fun p => p.1.id) hbefore
      rw [hafter, h.byClass, ← hnumber, hdescriptor, hnumber]
      exact congrArg (fun p => (p.1, u)) hbefore.symm

/-- Between registered numbers there is the route that there was, if there is the same converter. -/
theorem route {a b : TypeId} (ha : w.types.entries.contains a = true) (hb : w.types.entries.contains b = true)
    (hc : u.types.converters.find? (a, b) = w.types.converters.find? (a, b)) :
    u.types.route a b = w.types.route a b := by
  unfold TypeTable.route
  rw [h.sameType ha hb, hc]

theorem recast_eq : w.recast u.registries u.journal = u := by
  have hcounters := h.counters
  have hobjects := h.objects
  cases u
  subst hcounters hobjects
  rfl

/-- A route whose converter is apart from the registries leads a box to the same box. -/
theorem outcome_follow {route : TypeTable.Route} (hroute : route.Apart) {wanted : TypeId}
    (hwanted : ∀ k, route = .run k → w.types.Numbers k.target wanted) (b : Box) (depth : Nat) :
    (route.follow b).outcome depth u = (route.follow b).outcome depth w := by
  cases route with
  | kept => rfl
  | refused => rfl
  | run k =>
    show (Run.applyConverter k b (Script.run depth) u).map Prod.fst =
      (Run.applyConverter k b (Script.run depth) w).map Prod.fst
    cases hx : b.downcast k.source with
    | none => rw [Run.applyConverter_of_none hx, Run.applyConverter_of_none hx]; rfl
    | some x =>
      have hanswer := Run.answer_apart (hroute k rfl x) depth w u.registries u.journal
      rw [h.recast_eq] at hanswer
      rw [Run.applyConverter_eq hx, Run.bind_apply, Run.bind_apply, hanswer]
      cases hans : k.answer x (Script.run depth) w with
      | none => rfl
      | some p =>
        obtain ⟨o, v⟩ := p
        cases o with
        | none => rfl
        | some y =>
          -- the answer's type has its number in both worlds
          have hnumber : w.types.Numbers y.ty wanted := Run.ty_of_answer hans ▸ hwanted k rfl
          have hv : v.types.Numbers y.ty wanted := by
            rw [World.types, Run.registries_answer (hroute k rfl x) hans]; exact hnumber
          have hboxes := Step.box_fst_of_numbers (w := v.recast u.registries u.journal) (h.grows.numbers hnumber) hv
          exact congrArg (fun b => some (some b)) hboxes

end World.Widens

/-- In `u` the box, described by `own`, is converted to a number as it was in `w`: the test says the
    same, the table takes the box along the same route, and what comes of converting and
    reading it is the same, if the route is apart from the registries. -/
structure World.ConvertsAlike (w u : World) (b : Box) (own : Descriptor) (wanted : TypeId) : Prop where
  described : Step.describe b u = (own, u)
  test : (Step.canConvert b wanted u).1 = (Step.canConvert b wanted w).1
  route : ∀ x, x = w ∨ x = u → ∀ depth,
    (Run.tableConvert b wanted).atDepth depth x = ((w.types.route own.id wanted).follow b).atDepth depth x
  table : (w.types.route own.id wanted).Apart → ∀ depth,
    (Run.tableConvert b wanted).outcome depth u = (Run.tableConvert b wanted).outcome depth w
  convert : (w.types.route own.id wanted).Apart → ∀ depth,
    (Run.convert b wanted).outcome depth u = (Run.convert b wanted).outcome depth w
  read : (w.types.route own.id wanted).Apart → ∀ t, w.types.Numbers t wanted → ∀ depth,
    (Run.read b t).outcome depth u = (Run.read b t).outcome depth w

namespace World.Widens

variable {w u : World} (h : w.Widens u) {b : Box} {own : Descriptor} {wanted : TypeId}
include h

/-- The test of a box asks for the same numbers and nodes. -/
theorem canConvert (hb : Step.describe b w = (own, w)) (hu : Step.describe b u = (own, u))
    (hown : w.types.entries.contains own.id = true) (hwanted : w.types.entries.contains wanted = true)
    (hc : u.types.converters.find? (own.id, wanted) = w.types.converters.find? (own.id, wanted)) :
    (Step.canConvert b wanted u).1 = (Step.canConvert b wanted w).1 := by
  cases b with
  | null => rfl
  | plain id x =>
    have hid : own.id = id := by
      rw [← show w.types.descriptor id = own from congrArg Prod.fst hb, TypeTable.descriptor_id]
    subst hid
    show u.types.converts own.id wanted = w.types.converts own.id wanted
    simp only [TypeTable.converts, Table.contains, h.sameType hown hwanted, hc]
  | object id target =>
    obtain ⟨e, he⟩ := (Table.contains_iff _ _).mp hwanted
    obtain ⟨-, hbefore⟩ := Step.canConvert_object id wanted target w
    obtain ⟨-, hafter⟩ := Step.canConvert_object id wanted target u
    rw [hb] at hbefore
    rw [hu, h.grows.descriptor he] at hafter
    exact Bool.eq_iff_iff.mpr (hafter.trans hbefore.symm)

/-- Where the table has the same converter for two registered numbers, a box of the one is converted
    to the other as before. -/
theorem convertsAlike (hw : w.registries.Sound) (hu : u.registries.Sound) (hb : Step.describe b w = (own, w))
    (hown : w.types.entries.contains own.id = true) (hwanted : w.types.entries.contains wanted = true)
    (hc : u.types.converters.find? (own.id, wanted) = w.types.converters.find? (own.id, wanted)) :
    w.ConvertsAlike u b own wanted := by
  have hdescribed := h.describe hw hb hown
  have htest := h.canConvert hb hdescribed hown hwanted hc
  have hroute : ∀ x, x = w ∨ x = u → ∀ depth, (Run.tableConvert b wanted).atDepth depth x =
      ((w.types.route own.id wanted).follow b).atDepth depth x := by
    rintro x (rfl | rfl) depth
    · exact Run.tableConvert_route hb wanted _
    · rw [← h.route hown hwanted hc]
      exact Run.tableConvert_route hdescribed wanted _
  have htarget : ∀ k, w.types.route own.id wanted = .run k → w.types.Numbers k.target wanted := fun k hk =>
    (hw.converter (TypeTable.find?_of_route hk)).2
  have htable : (w.types.route own.id wanted).Apart → ∀ depth,
      (Run.tableConvert b wanted).outcome depth u = (Run.tableConvert b wanted).outcome depth w := fun hapart depth => by
    unfold Run.outcome
    rw [hroute u (.inr rfl), hroute w (.inl rfl)]
    exact h.outcome_follow hapart htarget b depth
  refine ⟨hdescribed, htest, hroute, htable, fun hapart depth => ?_, fun hapart t ht depth => ?_⟩
  · cases b with
    | null => exact Run.outcome_map_congr (·.getD .null) (htable hapart depth)
    | plain id x => exact Run.outcome_map_congr (·.getD .null) (htable hapart depth)
    | object id target =>
      unfold Run.outcome Run.atDepth
      rw [Run.convert_object, Run.convert_object, htest]; rfl
  · exact Run.outcome_read hw hu ht (h.grows.numbers ht) (htable hapart depth)

end World.Widens

/-- Whatever registers a converter between two different types without class, in a world that a
    program can get to, whatever its script does: in every world after it that records no further
    converter for the pair, it is the one that serves the two types. A box of a registered type is
    converted to any registered number that does not make the same pair as it was before. -/
theorem World.Reached.addConverter_own_pair {w : World} (hw : w.Reached) {s t : Ty} (hs : s.Plain) (ht : t.Plain)
    (hne : s ≠ t) (run : Content → Script) :
    let k : Converter := ⟨s, t, run⟩
    let u := (Step.addConverter k w).2
    ∃ i j, u.types.Numbers s i ∧ u.types.Numbers t j ∧
      (∀ v, u.Leads v → v.timesRegistered i j = u.timesRegistered i j → k.Serves i j v) ∧
      ∀ b own wanted, Step.describe b w = (own, w) → w.types.entries.contains own.id = true →
        w.types.entries.contains wanted = true → (own.id, wanted) ≠ (i, j) → w.ConvertsAlike u b own wanted := by
  intro k u
  obtain ⟨hwidens, i, j, hi, hj, hconverters⟩ := World.Widens.addConverter hw.sound (k := k) hs ht
  have hu : u.Reached := hw.trans (.addConverter w k)
  have hput : u.types.converters.find? (i, j) = some k := by
    rw [hconverters, Table.find?_insert, if_pos rfl]
  refine ⟨i, j, hi, hj, fun v hv hsame => ?_, fun b own wanted hb hown hwanted hpair => ?_⟩
  · have hgrow := hv.grows hu
    have hkept := (hv.converter_kept hsame).trans hput
    exact Converter.serves (hu.trans hv) hs ht hne (hgrow.numbers hi) (hgrow.numbers hj) hkept
  · have hother : u.types.converters.find? (own.id, wanted) = w.types.converters.find? (own.id, wanted) := by
      rw [hconverters, Table.find?_insert, if_neg (Ne.symm hpair)]
    exact hwidens.convertsAlike hw.sound hu.sound hb hown hwanted hother

/-- The converter between truth values and texts is replaced by one that answers yes, and then the
    one the other way is replaced. The truth value is still read as yes; and a number is
    converted to a text as it was. -/
theorem World.Reached.addConverter_own_pair_yes :
    let yes : Content → Script := fun x => match x with
      | .bool true => .done (.plain (.text "yes"))
      | _ => .decline
    let u := (Step.addConverter ⟨.bool, .text, yes⟩ fresh).2
    let v := (Step.addConverter ⟨.text, .bool, fun _ => .decline⟩ u).2
    let b := (Step.box (.plain (.bool true)) v).1
    (Run.read b .text).outcome 1 (Step.box (.plain (.bool true)) v).2 = some (some (.plain (.text "yes"))) ∧
      ∀ depth, (Run.convert (.plain ⟨3⟩ (.int .int32 7)) ⟨9⟩).outcome depth u =
        (Run.convert (.plain ⟨3⟩ (.int .int32 7)) ⟨9⟩).outcome depth fresh := by
  intro yes u v b
  obtain ⟨i, j, hi, hj, hserves, hothers⟩ := World.Reached.addConverter_own_pair .refl (s := .bool) (t := .text)
    ⟨rfl, by decide, by decide⟩ ⟨rfl, by decide, by decide⟩ (by decide) yes
  have hnumber : ∀ {t id}, u.types.Numbers t id → id = (Step.typeId t u).1 := fun h =>
    (congrArg Prod.fst (Step.typeId_of_numbers h)).symm
  obtain rfl : i = ⟨2⟩ := (hnumber hi).trans (by simp only [u, fresh_eq]; decide)
  obtain rfl : j = ⟨9⟩ := (hnumber hj).trans (by simp only [u, fresh_eq]; decide)
  constructor
  · have hkept : v.timesRegistered ⟨2⟩ ⟨9⟩ = u.timesRegistered ⟨2⟩ ⟨9⟩ := by simp only [v, u, fresh_eq]; decide
    have hread := (hserves v (.addConverter u _) hkept).read (.bool true) rfl 1
    exact congrArg (Option.map Prod.fst) hread
  · have halike := hothers (.plain ⟨3⟩ (.int .int32 7)) (fresh.types.descriptor ⟨3⟩) ⟨9⟩ rfl
      (by rw [fresh_eq]; decide) (by rw [fresh_eq]; decide) (by rw [fresh_eq]; decide)
    exact halike.convert (TypeTable.apart_fresh _ _)

/-- A registration may be noticed by a converter of another pair: one that answers what number a
    type has, and registers that type with it, answers a later number once there are other
    types. -/
theorem World.addConverter_noticed :
    let number : String → Ty := fun name => .custom ⟨name, name, .number 0⟩
    let celsius : CustomType := ⟨"Celsius", "Celsius", .number 0⟩
    let asking : Converter := ⟨.custom celsius, .int .int32, fun _ =>
      .act (.typeId (number "Kelvin")) fun id => .done (.plain (.int .int32 (.ofNat _ id.val)))⟩
    let k : Converter := ⟨number "Token", number "Point", fun _ => .decline⟩
    let w := (Step.addConverter asking fresh).2
    let u := (Step.addConverter k w).2
    let b := (Step.box (.plain (.custom celsius (.number 21))) w).1
    let held : Box → Option Int := fun b => match b with
      | .plain _ (.int k v) => some (k.toInt v)
      | _ => none
    w.Reached ∧ k.source.Plain ∧ k.target.Plain ∧ k.source ≠ k.target ∧
      (Step.describe b w).1.id = ⟨1024⟩ ∧ w.types.entries.contains ⟨1024⟩ = true ∧
      w.types.entries.contains ⟨3⟩ = true ∧
      ((Step.typeId k.source u).1, (Step.typeId k.target u).1) ≠ ((⟨1024⟩ : TypeId), (⟨3⟩ : TypeId)) ∧
      ((Run.convert b ⟨3⟩).outcome 1 w).map held = some (some 1025) ∧
      ((Run.convert b ⟨3⟩).outcome 1 u).map held = some (some 1027) := by
  intro number celsius asking k w u b held
  refine ⟨.addConverter fresh asking, ⟨rfl, by decide, by decide⟩, ⟨rfl, by decide, by decide⟩, by decide, ?_⟩
  simp only [b, u, w, fresh_eq]
  decide

end Multimethod
