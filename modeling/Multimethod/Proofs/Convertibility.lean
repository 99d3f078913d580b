/-
  Multimethod.Proofs.Convertibility — when a type can stand for another.

  The type test makes a value of the source type and asks it. `Registries.Accepts` says
  the same without making one: equal numbers, the wildcard, classes along their links, or a
  type without class whose contents the table converts. What a made value is like
  (`Probes`) depends on the factory of the type, if there is one; given that, the test
  answers by `Accepts` (`isConvertible_spec`), and without one it changes nothing at all.
  Between classes the registries are not asked.
-/
import Multimethod.Proofs.Reading
import Multimethod.Proofs.Runs

namespace Multimethod

open Registries (Grows Course)

namespace Registries

variable {r s : Registries}

/-- `d` is the wildcard, or has a registered number and the node of it; maps have no node. -/
structure Describes (r : Registries) (d : Descriptor) : Prop where
  known : d = Descriptor.wild ∨ ∃ e, r.types.entries.find? d.id = some e ∧ d.node = e.node
  map : d.id = TypeId.map → d.node = none

/-- A value of type `a` can stand where `b` is expected. -/
def Accepts (r : Registries) (a b : Descriptor) : Prop :=
  a.id = b.id ∨ b = Descriptor.wild ∨ (∃ n m, a.node = some n ∧ b.node = some m ∧ m ∈ n.ancestors) ∨
    a.node = none ∧ ∃ e, r.types.entries.find? a.id = some e ∧ e.ty ≠ .void ∧ e.ty ≠ .any ∧ b.id ≠ TypeId.map ∧
      ((∃ f, r.types.entries.find? b.id = some f ∧ f.ty = e.ty) ∨
        ∃ i, r.types.byType.find? e.ty = some i ∧ r.types.converters.contains (i, b.id) = true)

/-- Each argument type is accepted for the parameter at its place. -/
def AcceptsAll (r : Registries) (types params : List Descriptor) : Prop := ∀ x ∈ types.zip params, r.Accepts x.1 x.2

/-- `b` is like the boxes that are made of type `a`, which has no class. -/
def Probes (r : Registries) (a : Descriptor) (b : Box) : Prop :=
  match r.types.entries.find? a.id with
  | none => b = .null
  | some e => (e.ty = .void ∨ e.ty = .any) ∧ b = .null ∨
      ∃ i c, b = .plain i c ∧ c.ty = e.ty ∧ r.types.byType.find? e.ty = some i

theorem Describes.mono (h : Grows r s) {d : Descriptor} (hd : r.Describes d) : s.Describes d := by
  refine ⟨hd.known.imp_right ?_, hd.map⟩
  rintro ⟨e, he, hn⟩
  obtain ⟨f, hf, -, -, hnode⟩ := h.entry he
  exact ⟨f, hf, hn.trans hnode.symm⟩

/-- What is accepted stays accepted. -/
theorem Accepts.mono (h : Grows r s) {a b : Descriptor} (hab : r.Accepts a b) : s.Accepts a b := by
  refine hab.imp_right (Or.imp_right (Or.imp_right ?_))
  rintro ⟨ha, e, he, hv, hy, hm, hc⟩
  obtain ⟨f, hf, hty, -⟩ := h.entry he
  rw [← hty] at hv hy hc
  refine ⟨ha, f, hf, hv, hy, hm, hc.imp ?_ ?_⟩
  · rintro ⟨g, hg, hgty⟩
    obtain ⟨g', hg', hgty', -⟩ := h.entry hg
    exact ⟨g', hg', hgty'.trans hgty⟩
  · rintro ⟨i, hi, hc⟩
    exact ⟨i, h.byType hi, h.converter hc⟩

theorem AcceptsAll.mono (h : Grows r s) {types params : List Descriptor} (ha : r.AcceptsAll types params) :
    s.AcceptsAll types params := fun x hx => (ha x hx).mono h

theorem Sound.find?_wild (h : r.Sound) : r.types.entries.find? TypeId.wild = none := by
  cases he : r.types.entries.find? TypeId.wild with
  | none => rfl
  | some e => exact absurd rfl (h.ne_wild he)

theorem Describes.isWild (h : r.Sound) {d : Descriptor} (hd : r.Describes d) (hw : d.isWild = true) :
    d = Descriptor.wild := by
  rcases hd.known with rfl | ⟨e, he, -⟩
  · rfl
  · exact absurd (by simpa [Descriptor.isWild, TypeId.isWild] using hw) (h.ne_wild he)

/-- The node of a description is a cached one. -/
theorem Describes.cached (h : r.Sound) {d : Descriptor} (hd : r.Describes d) {n : ClassNode} (hn : d.node = some n) :
    ∃ c, r.classes.find? c = some n := by
  rcases hd.known with rfl | ⟨e, he, hnode⟩
  · cases hn
  · obtain ⟨c, -, hc⟩ := h.pointer_of_node he (hnode.symm.trans hn)
    exact ⟨c, hc⟩

/-- Descriptions with one node are of the same node. -/
theorem Describes.inherits_iff (h : r.Sound) {a b : Descriptor} (ha : r.Describes a) (hb : r.Describes b)
    {n m : ClassNode} (hn : a.node = some n) (hm : b.node = some m) : n.inherits m = true ↔ m ∈ n.ancestors := by
  obtain ⟨c, hc⟩ := ha.cached h hn
  obtain ⟨d, hd⟩ := hb.cached h hm
  exact h.classes.inherits_iff_mem hc hd

/-- A number converts to another one when that is of the same type or there is a converter. -/
theorem Sound.converts_iff (h : r.Sound) {t : Ty} {i : TypeId} (hi : r.types.byType.find? t = some i) (j : TypeId) :
    r.types.converts i j = true ↔
      (∃ f, r.types.entries.find? j = some f ∧ f.ty = t) ∨ r.types.converters.contains (i, j) = true := by
  obtain ⟨e, he, rfl⟩ := h.entry_of_byType hi
  have hsame : r.types.sameType i j = true ↔ ∃ f, r.types.entries.find? j = some f ∧ f.ty = e.ty := by
    rw [TypeTable.sameType_iff]
    constructor
    · rintro ⟨e', f, he', hf, hef⟩
      cases he.symm.trans he'
      exact ⟨f, hf, hef.symm⟩
    · exact fun ⟨f, hf, hfe⟩ => ⟨e, f, he, hf, hfe.symm⟩
  rw [TypeTable.converts, Bool.or_eq_true, Bool.or_eq_true, hsame, beq_iff_eq, or_assoc]
  refine ⟨fun hc => hc.elim ?_ id, .inr⟩
  rintro rfl
  exact .inl ⟨e, he, rfl⟩

/-- A made value tells whether its type is accepted where nothing else decides. -/
theorem Probes.answers (h : r.Sound) {a b : Descriptor} {probe : Box} (hp : r.Probes a probe) (hn : a.node = none)
    (hid : a.id ≠ b.id) (hw : b ≠ Descriptor.wild) (hm : b.id ≠ TypeId.map) :
    probe = .null ∧ ¬ r.Accepts a b ∨
      ∃ i c, probe = .plain i c ∧ (r.types.converts i b.id = true ↔ r.Accepts a b) := by
  unfold Accepts
  simp only [hid, hw, hn, reduceCtorEq, false_and, exists_false, false_or, true_and]
  unfold Probes at hp
  split at hp
  · rename_i he
    refine .inl ⟨hp, ?_⟩
    rintro ⟨e, he', _⟩
    rw [he] at he'; cases he'
  · rename_i e he
    rcases hp with ⟨hty, rfl⟩ | ⟨i, c, rfl, hc, hi⟩
    · refine .inl ⟨rfl, ?_⟩
      rintro ⟨e', he', hv, hy, _⟩
      cases he.symm.trans he'
      exact absurd hty (not_or.mpr ⟨hv, hy⟩)
    · have hne : e.ty ≠ .void ∧ e.ty ≠ .any := by
        rw [← hc]; cases c <;> simp [Content.ty]
      refine .inr ⟨i, c, rfl, (h.converts_iff hi b.id).trans ⟨fun hconv => ?_, ?_⟩⟩
      · exact ⟨e, he, hne.1, hne.2, hm, hconv.imp_right fun hconv => ⟨i, hi, hconv⟩⟩
      · rintro ⟨e', he', -, -, -, hconv⟩
        cases he.symm.trans he'
        refine hconv.imp_right ?_
        rintro ⟨j, hj, hconv⟩
        cases hi.symm.trans hj; exact hconv

/-- Two classes are accepted along the links between their nodes. -/
theorem Describes.accepts_iff (h : r.Sound) {a b : Descriptor} (ha : r.Describes a) (hb : r.Describes b)
    {n : ClassNode} (hn : a.node = some n) :
    r.Accepts a b ↔ a.same b = true ∨ b.isWild = true ∨
      b.id ≠ TypeId.map ∧ ∃ m, b.node = some m ∧ n.inherits m = true := by
  have hchain := fun m => ha.inherits_iff h hb hn (m := m)
  constructor
  · rintro (hid | rfl | ⟨n', m, hn', hm, hin⟩ | ⟨hnone, -⟩)
    · exact .inl (by simp [Descriptor.same, hid])
    · exact .inr (.inl rfl)
    · cases hn.symm.trans hn'
      refine .inr (.inr ⟨fun hmap => ?_, m, hm, (hchain m hm).mpr hin⟩)
      rw [hb.map hmap] at hm; cases hm
    · rw [hn] at hnone; cases hnone
  · rintro (hs | hw | ⟨-, m, hm, hin⟩)
    · rcases (Bool.or_eq_true _ _).mp hs with hid | hs
      · exact .inl (by simpa using hid)
      · cases hm : b.node with
        | none => simp [hn, hm, Descriptor.sameNode] at hs
        | some m =>
          simp only [hn, hm, Descriptor.sameNode] at hs
          have hin : n.inherits m = true := List.any_eq_true.mpr ⟨n, n.self_mem_ancestors, hs⟩
          exact .inr (.inr (.inl ⟨n, m, hn, hm, (hchain m hm).mp hin⟩))
    · exact .inr (.inl (hb.isWild h hw))
    · exact .inr (.inr (.inl ⟨n, m, hn, hm, (hchain m hm).mp hin⟩))

end Registries

/-- A type without class has a content for default value, unless nothing is held of it. -/
theorem Ty.default_cases {t : Ty} (h : t.cls? = none) :
    t = .void ∧ t.default = .unit ∨ t = .any ∧ t.default = .any .null ∨
      ∃ c : Content, c.ty = t ∧ t.default = .plain c := by
  cases t with
  | void => exact .inl ⟨rfl, rfl⟩
  | any => exact .inr (.inl ⟨rfl, rfl⟩)
  | pointer _ => cases h
  | _ => exact .inr (.inr ⟨_, rfl, rfl⟩)

namespace Run

variable {a b : Descriptor} {c : Caller} {w v : World} {ans : Bool}

/-! ## The test on what it makes -/

/-- Between classes the registries are not asked. -/
theorem isConvertible_class (a b : Descriptor) {n : ClassNode} (hn : a.node = some n) :
    ∃ ans, (∀ c w, isConvertible a b c w = some (ans, w)) ∧
      (ans = true ↔ a.same b = true ∨ b.isWild = true ∨
        b.id ≠ TypeId.map ∧ ∃ m, b.node = some m ∧ n.inherits m = true) := by
  unfold isConvertible
  rw [hn]
  by_cases hs : (a.same b || b.isWild) = true
  · simp only [hs, if_true]
    exact ⟨true, fun _ _ => rfl, fun _ => (Bool.or_eq_true _ _ ▸ hs).imp_right .inl, fun _ => rfl⟩
  · simp only [hs, Bool.false_eq_true, if_false]
    simp only [Bool.or_eq_true, not_or] at hs
    by_cases hm : b.id = TypeId.map
    · simp only [hm, if_true]
      exact ⟨false, fun _ _ => rfl, by simp [hs]⟩
    · simp only [hm, if_false]
      cases b.node with
      | none => exact ⟨false, fun _ _ => rfl, by simp [hs]⟩
      | some m => exact ⟨n.inherits m, fun _ _ => rfl, by simp [hs, hm]⟩

/-- Without a class, a value is made unless the answer is plain before. -/
theorem isConvertible_plain (a b : Descriptor) (ha : a.node = none) (c : Caller) (w : World) :
    isConvertible a b c w =
      if a.id = b.id ∨ b.isWild = true then some (true, w)
      else if b.id = TypeId.map then some (false, w)
      else (create a.id c w).bind fun (probe, v) =>
        if probe.isNull then some (false, v) else some (Step.canConvert probe b.id v) := by
  have hsame : a.same b = decide (a.id = b.id) := by
    simp only [Descriptor.same, ha, Descriptor.sameNode, Bool.or_false]
    rfl
  unfold isConvertible
  rw [ha, hsame]
  by_cases hs : a.id = b.id ∨ b.isWild = true
  · have hs' : (decide (a.id = b.id) || b.isWild) = true := by simpa using hs
    simp only [hs, hs', if_true]; rfl
  · have hs' : (decide (a.id = b.id) || b.isWild) = false := by simpa using hs
    simp only [hs, hs', Bool.false_eq_true, if_false]
    by_cases hm : b.id = TypeId.map
    · simp only [hm, if_true]; rfl
    · simp only [hm, if_false]
      show (create a.id c w).bind _ = (create a.id c w).bind _
      congr 1
      funext p
      cases hp : p.1.isNull <;> simp only [hp, Bool.false_eq_true, if_true, if_false] <;> rfl

/-- Given what is made of the source type, the test answers by what is accepted in the end. -/
theorem isConvertible_spec (hw : w.registries.Sound) (ha : w.registries.Describes a) (hb : w.registries.Describes b)
    (hp : a.node = none → ∀ probe v, create a.id c w = some (probe, v) →
      v.registries.Sound ∧ v.registries.Probes a probe)
    (h : isConvertible a b c w = some (ans, v)) : ans = true ↔ v.registries.Accepts a b := by
  cases hn : a.node with
  | some n =>
    obtain ⟨ans', hrun, hans⟩ := isConvertible_class a b hn
    cases (hrun c w).symm.trans h
    rw [hans, ha.accepts_iff hw hb hn]
  | none =>
    rw [isConvertible_plain a b hn c w] at h
    split at h
    · rename_i hs
      cases h
      exact ⟨fun _ => hs.imp_right fun hw' => .inl (hb.isWild hw hw'), fun _ => rfl⟩
    · rename_i hs
      obtain ⟨hid, hwild⟩ := not_or.mp hs
      have hne : b ≠ Descriptor.wild := fun e => hwild (e ▸ rfl)
      split at h
      · rename_i hmap
        cases h
        refine ⟨fun hf => (by cases hf), ?_⟩
        rintro (hid' | hw' | ⟨n, -, hn', -⟩ | ⟨-, -, -, -, -, hm, -⟩)
        · exact absurd hid' hid
        · exact absurd hw' hne
        · rw [hn] at hn'; cases hn'
        · exact absurd hmap hm
      · rename_i hmap
        obtain ⟨⟨probe, u⟩, hcreate, hrest⟩ := Option.bind_eq_some_iff.mp h
        obtain ⟨hu, hprobe⟩ := hp hn probe u hcreate
        rcases hprobe.answers hu hn hid hne hmap with ⟨rfl, hno⟩ | ⟨i, d, rfl, hyes⟩
        · cases hrest
          exact ⟨fun hf => (by cases hf), fun hacc => absurd hacc hno⟩
        · cases hrest; exact hyes

/-! ## Without factories -/

theorem create_of_factory {id : TypeId} {make : Script} (h : w.registries.factories.find? id = some make) :
    create id c w = callBoxed make c w := by
  unfold create
  rw [bind_apply]
  show (some (w, w)).bind _ = _
  rw [Option.bind_some, h]

/-- Without a factory the default value is made. -/
theorem create_of_no_factory {id : TypeId} (h : w.registries.factories.find? id = none) :
    create id c w = defaultValue id c w := by
  unfold create
  rw [bind_apply]
  show (some (w, w)).bind _ = _
  rw [Option.bind_some, h]

theorem defaultValue_of_maker {id : TypeId} {make : Script}
    (h : (w.types.entries.find? id).bind Entry.maker = some make) : defaultValue id c w = callBoxed make c w := by
  unfold defaultValue
  rw [bind_apply]
  show (some (w, w)).bind _ = _
  rw [Option.bind_some, h]

theorem defaultValue_of_none {id : TypeId} (h : (w.types.entries.find? id).bind Entry.maker = none) :
    defaultValue id c w = some (Step.nullValue id w) := by
  unfold defaultValue
  rw [bind_apply]
  show (some (w, w)).bind _ = _
  rw [Option.bind_some, h]; rfl

/-- Without a factory and a maker it is not live. -/
theorem create_of_none {id : TypeId} (hf : w.registries.factories.find? id = none)
    (hm : (w.types.entries.find? id).bind Entry.maker = none) : create id c w = some (Step.nullValue id w) :=
  (create_of_no_factory hf).trans (defaultValue_of_none hm)

/-- Where no factory is registered for a type without class, a default value is made, and
    making it changes nothing. -/
theorem create_default (hw : w.registries.Sound) (ha : w.registries.Describes a) (hn : a.node = none)
    (hf : w.registries.factories.find? a.id = none) :
    ∃ probe, (∀ c, create a.id c w = some (probe, w)) ∧ w.registries.Probes a probe := by
  unfold Registries.Probes
  rcases ha.known with rfl | ⟨e, he, hnode⟩
  · have hnone : w.types.entries.find? Descriptor.wild.id = none := hw.find?_wild
    refine ⟨.null, fun c => ?_, by rw [hnone]⟩
    rw [create_of_none hf (by rw [hnone]; rfl), Step.nullValue_of_none hnone]
  · have hnode' : e.node = none := hnode.symm.trans hn
    have hrun : ∀ c, create a.id c w = some (Step.box e.ty.default w) := fun c => by
      rw [create_of_none hf (by rw [he]; exact hw.maker he hnode'), Step.nullValue_of_some he]
    obtain ⟨i, hi⟩ := hw.bound he
    rw [he]
    rcases Ty.default_cases ((hw.node he).cls_none hnode') with ⟨hty, hd⟩ | ⟨hty, hd⟩ | ⟨d, hty, hd⟩
    · exact ⟨.null, fun c => by rw [hrun, hd]; rfl, .inl ⟨.inl hty, rfl⟩⟩
    · exact ⟨.null, fun c => by rw [hrun, hd]; rfl, .inl ⟨.inr hty, rfl⟩⟩
    · exact ⟨.plain i d, fun c => by rw [hrun, hd, Step.box_plain (hty ▸ hi)], .inr ⟨i, d, rfl, hty, hi⟩⟩

/-- Where no factory is asked, the test ends and changes nothing. -/
theorem exists_isConvertible_default (hw : w.registries.Sound) (ha : w.registries.Describes a) (b : Descriptor)
    (hf : a.node = none → w.registries.factories.find? a.id = none) :
    ∃ ans, ∀ c, isConvertible a b c w = some (ans, w) := by
  cases hn : a.node with
  | some n =>
    obtain ⟨ans, hrun, -⟩ := isConvertible_class a b hn
    exact ⟨ans, fun c => hrun c w⟩
  | none =>
    obtain ⟨probe, hcreate, hprobe⟩ := create_default hw ha hn (hf hn)
    have hshape : probe = .null ∨ ∃ i d, probe = .plain i d := by
      unfold Registries.Probes at hprobe
      split at hprobe
      · exact .inl hprobe
      · rcases hprobe with ⟨-, rfl⟩ | ⟨i, d, rfl, -⟩
        · exact .inl rfl
        · exact .inr ⟨i, d, rfl⟩
    simp only [isConvertible_plain a b hn, hcreate, Option.bind_some]
    split
    · exact ⟨true, fun _ => rfl⟩
    · split
      · exact ⟨false, fun _ => rfl⟩
      · rcases hshape with rfl | ⟨i, d, rfl⟩
        · exact ⟨false, fun _ => rfl⟩
        · exact ⟨_, fun _ => rfl⟩

/-- Then it answers what is accepted. -/
theorem isConvertible_default (hw : w.registries.Sound) (ha : w.registries.Describes a)
    (hb : w.registries.Describes b) (hf : a.node = none → w.registries.factories.find? a.id = none) :
    ∃ ans, (∀ c, isConvertible a b c w = some (ans, w)) ∧ (ans = true ↔ w.registries.Accepts a b) := by
  obtain ⟨ans, hrun⟩ := exists_isConvertible_default hw ha b hf
  refine ⟨ans, hrun, isConvertible_spec hw ha hb (fun hn probe v hcreate => ?_) (hrun fun _ _ => none)⟩
  obtain ⟨probe', hcreate', hprobe⟩ := create_default hw ha hn (hf hn)
  cases (hcreate' _).symm.trans hcreate
  exact ⟨hw, hprobe⟩

end Run

/-! ## Descriptions that a program takes -/

/-- The description is the wildcard's, or it was taken of a number that was registered then. -/
inductive Descriptor.Taken : World → Descriptor → Prop
  | wild {w : World} (hw : w.Reached) : Taken w Descriptor.wild
  | number {w : World} (hw : w.Reached) {id : TypeId} (h : w.types.entries.contains id = true) :
      Taken w (w.types.descriptor id)
  | ofType {w : World} (hw : w.Reached) (t : Ty) : Taken (Step.descriptorOf t w).2 (Step.descriptorOf t w).1
  | ofBox {w : World} (hw : w.Reached) (b : Box)
      (h : (Step.describe b w).2.types.entries.contains (Step.describe b w).1.id = true) :
      Taken (Step.describe b w).2 (Step.describe b w).1
  | later {w v : World} {d : Descriptor} (h : Taken w d) (hv : w.Leads v) : Taken v d

namespace World

/-- The number of maps is never that of a class. -/
theorem Reached.map_node {w : World} (hw : w.Reached) {e : Entry}
    (he : w.types.entries.find? TypeId.map = some e) : e.node = none := by
  exact congrArg Prod.snd (hw.builtin (p := (.map, none)) (by rw [World.fresh_eq]; decide) he)

theorem Reached.describes_wild {w : World} : w.registries.Describes Descriptor.wild :=
  ⟨.inl rfl, fun h => by cases h⟩

theorem Reached.describes {w : World} (hw : w.Reached) {id : TypeId} (h : w.types.entries.contains id = true) :
    w.registries.Describes (w.types.descriptor id) := by
  obtain ⟨e, he⟩ := (Table.contains_iff _ _).mp h
  rw [hw.sound.descriptor he]
  exact ⟨.inr ⟨e, he, rfl⟩, fun hid => hw.map_node (hid ▸ he)⟩

end World

theorem Descriptor.Taken.describes {w : World} {d : Descriptor} (h : d.Taken w) :
    w.Reached ∧ w.registries.Describes d := by
  induction h with
  | wild hw => exact ⟨hw, World.Reached.describes_wild⟩
  | number hw h => exact ⟨hw, hw.describes h⟩
  | @ofType w hw t =>
    have hv := hw.leads (.descriptorOf w t)
    refine ⟨hv, ?_⟩
    rcases Step.typeId_spec t w with ⟨-, hid⟩ | ⟨-, hb⟩
    · show Registries.Describes _ ((Step.typeId t w).2.types.descriptor (Step.typeId t w).1)
      rw [hid]; exact World.Reached.describes_wild
    · obtain ⟨e, he, -⟩ := hv.sound.entry_of_byType hb
      exact hv.describes ((Table.contains_iff _ _).mpr ⟨e, he⟩)
  | @ofBox w hw b h =>
    have hv := hw.leads (.describe w b)
    refine ⟨hv, ?_⟩
    rw [Step.describe_eq_descriptor hw.sound b]
    exact hv.describes h
  | later _ hv ih => exact ⟨ih.1.leads hv, ih.2.mono (World.Leads.grows ih.1 hv)⟩

/-- Where no factory is registered for a source type without class, the type test ends at any
    depth, changes nothing, and answers by the tables of types and converters; for a class
    its answer is the same in every world. -/
theorem Run.isConvertible_iff {w : World} {a b : Descriptor} (ha : a.Taken w) (hb : b.Taken w)
    (hf : a.node = none → w.registries.factories.find? a.id = none) :
    ∃ ans, (∀ depth, (isConvertible a b).atDepth depth w = some (ans, w)) ∧
      (ans = true ↔
        a.id = b.id ∨
        b = Descriptor.wild ∨
        (∃ n m, a.node = some n ∧ b.node = some m ∧ m ∈ n.ancestors) ∨
        a.node = none ∧ ∃ e, w.types.entries.find? a.id = some e ∧ e.ty ≠ .void ∧ e.ty ≠ .any ∧ b.id ≠ TypeId.map ∧
          ((∃ f, w.types.entries.find? b.id = some f ∧ f.ty = e.ty) ∨
            w.types.converters.contains ((Step.idOf e.ty w).1, b.id) = true)) ∧
      (a.isClass = true → ∀ v depth, (isConvertible a b).atDepth depth v = some (ans, v)) := by
  obtain ⟨hw, ha⟩ := ha.describes
  obtain ⟨-, hb⟩ := hb.describes
  obtain ⟨ans, hrun, hans⟩ := isConvertible_default hw.sound ha hb hf
  refine ⟨ans, fun depth => hrun _, hans.trans ?_, fun hc v depth => ?_⟩
  · unfold Registries.Accepts
    refine or_congr_right (or_congr_right (or_congr_right (and_congr_right fun _ => ?_)))
    refine exists_congr fun e => and_congr_right ?_
    intro he
    obtain ⟨i, hi⟩ := hw.sound.bound he
    simp only [World.types, hi, Step.idOf_of_bound hi, Option.some.injEq, exists_eq_left']
  · obtain ⟨n, hn⟩ := Option.isSome_iff_exists.mp hc
    obtain ⟨ans', hrun', -⟩ := isConvertible_class a b hn
    cases (hrun' (Script.run depth) w).symm.trans (hrun _)
    exact hrun' _ v

/-- The second number of texts converts to the number of 32-bit integers, as the first does. -/
theorem Run.isConvertible_renamed :
    (isConvertible (World.renamed.types.descriptor ⟨TypeId.firstUser⟩) (World.renamed.types.descriptor ⟨3⟩)).atDepth 0
      World.renamed = some (true, World.renamed) := by
  have ha : World.renamed.types.entries.contains ⟨TypeId.firstUser⟩ = true := by rw [World.renamed_eq]; decide
  have hb : World.renamed.types.entries.contains ⟨3⟩ = true := by rw [World.renamed_eq]; decide
  obtain ⟨ans, hrun, hans, -⟩ := Run.isConvertible_iff (.number World.reached_renamed ha)
    (.number World.reached_renamed hb) fun _ => World.factories_renamed _
  have hty : (World.renamed.types.entries.find? ⟨TypeId.firstUser⟩).map Entry.ty = some .text := by
    rw [World.renamed_eq]; decide
  obtain ⟨e, he, hty⟩ := Option.map_eq_some_iff.mp hty
  have htrue : ans = true := hans.mpr <| .inr <| .inr <| .inr <| by
    simp only [TypeTable.descriptor_id]
    have hnode : (World.renamed.types.descriptor ⟨TypeId.firstUser⟩).node = none := by rw [World.renamed_eq]; decide
    exact ⟨hnode, e, he, by simp [hty], by simp [hty], by decide, .inr (by rw [hty, World.renamed_eq]; decide)⟩
  rw [hrun, htrue]

end Multimethod
