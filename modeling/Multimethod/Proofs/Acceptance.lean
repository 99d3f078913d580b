/-
  Multimethod.Proofs.Acceptance — acceptance told by types instead of numbers.

  `Registries.Accepts` compares numbers, nodes and pairs of numbers that have a converter.
  For registered numbers all of these are settled by the types that they stand for and by
  the pairs of types that a converter joins (`Joins`), up to two matters in which the number
  itself counts: equal numbers are always accepted, and a converter leads only to the number
  that its target type has in signatures (`Sound.accepts_iff`). For the numbers that types
  have in signatures nothing but the types is left (`OfType.accepts_iff`).
-/
import Multimethod.Proofs.Converting
import Multimethod.Proofs.Delivery

namespace Multimethod

open Registries (Grows)

/-- The number is registered for the type. -/
def TypeTable.StandsFor (t : TypeTable) (id : TypeId) (ty : Ty) : Prop := (t.entries.find? id).map Entry.ty = some ty

/-- Both numbers of texts are. -/
theorem World.standsFor_renamed :
    renamed.types.StandsFor ⟨9⟩ .text ∧ renamed.types.StandsFor ⟨TypeId.firstUser⟩ .text := by
  rw [renamed_eq, TypeTable.StandsFor, TypeTable.StandsFor]; decide

/-- A type has one number in signatures. -/
theorem TypeTable.Numbers.eq {t : TypeTable} {ty : Ty} {i j : TypeId} (hi : t.Numbers ty i) (hj : t.Numbers ty j) :
    i = j := by
  rcases hi with ⟨hany, rfl⟩ | ⟨hne, hi⟩
  · rcases hj with ⟨-, rfl⟩ | ⟨hne, -⟩
    · rfl
    · exact absurd hany hne
  · rcases hj with ⟨hany, -⟩ | ⟨-, hj⟩
    · exact absurd hany hne
    · exact Option.some.inj (hi.symm.trans hj)

/-- A value of type `s` can stand where one of type `t` is expected, when `joins` tells which
    types are joined by a converter. -/
inductive Ty.Suits (joins : Ty → Ty → Prop) : Ty → Ty → Prop
  | same (t : Ty) : Suits joins t t
  | any (s : Ty) : Suits joins s .any
  | ancestor {k l : ClassDecl} (h : l ∈ k.chain) : Suits joins (.pointer k) (.pointer l)
  | converter {s t : Ty} (hcls : s.cls? = none) (hvoid : s ≠ .void) (hany : s ≠ .any) (hmap : t ≠ .map)
      (h : joins s t) : Suits joins s t

namespace Registries

variable {r r' : Registries} {s t : Ty} {i j : TypeId} {a b : Descriptor}

/-- A converter from type `s` to type `t` is registered. -/
def Joins (r : Registries) (s t : Ty) : Prop :=
  ∃ key c, r.types.converters.find? key = some c ∧ c.source = s ∧ c.target = t

/-- Only the converters between the numbers of two types join them. -/
theorem Sound.joins_iff (hr : r.Sound) (hi : r.types.Numbers s i) (hj : r.types.Numbers t j) :
    r.Joins s t ↔ r.types.converters.contains (i, j) = true := by
  rw [Table.contains_iff]
  constructor
  · rintro ⟨⟨i', j'⟩, c, hc, rfl, rfl⟩
    obtain ⟨hi', hj'⟩ := hr.converter hc
    rw [hi.eq hi', hj.eq hj']
    exact ⟨c, hc⟩
  · rintro ⟨c, hc⟩
    obtain ⟨hi', hj'⟩ := hr.converter hc
    exact ⟨(i, j), c, hc, hr.numbers_unique hi' hi, hr.numbers_unique hj' hj⟩

/-- A registered number is one of its type's numbers; the one in signatures need not be it. -/
theorem Sound.standsFor_of_numbers (hr : r.Sound) (hn : r.types.Numbers t i) (hany : t ≠ .any) :
    r.types.StandsFor i t := by
  rcases hn with ⟨h, -⟩ | ⟨-, hb⟩
  · exact absurd h hany
  · obtain ⟨e, he, rfl⟩ := hr.entry_of_byType hb
    exact Option.map_eq_some_iff.mpr ⟨e, he, rfl⟩

/-- An entry has a node when its type has a class. -/
theorem Sound.node_eq_none_iff (hr : r.Sound) {e : Entry} (he : r.types.entries.find? i = some e) :
    e.node = none ↔ e.ty.cls? = none :=
  ⟨(hr.node he).cls_none, hr.node_of_plain he⟩

/-- The links between the nodes of two entries are those between their classes. -/
theorem Sound.mem_ancestors_iff (hr : r.Sound) {e f : Entry} (he : r.types.entries.find? i = some e)
    (hf : r.types.entries.find? j = some f) :
    (∃ n m, e.node = some n ∧ f.node = some m ∧ m ∈ n.ancestors) ↔
      ∃ k l, e.ty = .pointer k ∧ f.ty = .pointer l ∧ l ∈ k.chain := by
  constructor
  · rintro ⟨n, m, hn, hm, hin⟩
    obtain ⟨k, hk, hkn⟩ := hr.pointer_of_node he hn
    obtain ⟨l, hl, hlm⟩ := hr.pointer_of_node hf hm
    obtain ⟨l', hchain, hlm'⟩ := (hr.classes.mem_ancestors_iff hkn).mp hin
    have hll : l' = l := (hr.classes.decl hlm').symm.trans (hr.classes.decl hlm)
    exact ⟨k, l, hk, hl, hll ▸ hchain⟩
  · rintro ⟨k, l, hk, hl, hchain⟩
    obtain ⟨n, hkn, hn⟩ := hr.node_of_pointer he hk
    obtain ⟨m, hlm, hm⟩ := hr.node_of_pointer hf hl
    exact ⟨n, m, hn, hm, (hr.classes.mem_ancestors_iff hkn).mpr ⟨l, hchain, hlm⟩⟩

/-- From the number of a type in signatures, a converter leads to the registered number `j`
    just where it joins the types and `j` is the number in signatures. -/
theorem Sound.converter_iff (hr : r.Sound) (hany : s ≠ .any) (hj : r.types.StandsFor j t) :
    (∃ n, r.types.byType.find? s = some n ∧ r.types.converters.contains (n, j) = true) ↔
      r.Joins s t ∧ r.types.Numbers t j := by
  obtain ⟨f, hf, rfl⟩ := Option.map_eq_some_iff.mp hj
  constructor
  · rintro ⟨n, hn, hc⟩
    obtain ⟨c, hfind⟩ := (Table.contains_iff _ _).mp hc
    have hj' := (hr.converter hfind).2
    have hty : f.ty = c.target := hr.ty_of_numbers hj' hf
    rw [← hty] at hj'
    exact ⟨(hr.joins_iff (.inr ⟨hany, hn⟩) hj').mpr hc, hj'⟩
  · rintro ⟨hjoin, hj'⟩
    have hjoin' := hjoin
    obtain ⟨⟨n, _⟩, c, hfind, rfl, -⟩ := hjoin
    have hn := (hr.converter hfind).1
    refine ⟨n, ?_, (hr.joins_iff hn hj').mp hjoin'⟩
    rcases hn with ⟨h, -⟩ | ⟨-, hn⟩
    · exact absurd h hany
    · exact hn

/-- Between registered numbers, acceptance is a matter of the types, but for equal numbers and
    for the number that a converter leads to. -/
theorem Sound.accepts_iff (hr : r.Sound) (hi : r.types.StandsFor i s) (hj : r.types.StandsFor j t) :
    r.Accepts (r.types.descriptor i) (r.types.descriptor j) ↔
      i = j ∨ (∃ k l, s = .pointer k ∧ t = .pointer l ∧ l ∈ k.chain) ∨
        s.cls? = none ∧ s ≠ .void ∧ s ≠ .any ∧ j ≠ TypeId.map ∧ (t = s ∨ r.Joins s t ∧ r.types.Numbers t j) := by
  have hconverter := fun hany => hr.converter_iff (s := s) hany hj
  obtain ⟨e, he, rfl⟩ := Option.map_eq_some_iff.mp hi
  obtain ⟨f, hf, rfl⟩ := Option.map_eq_some_iff.mp hj
  have hwild : (⟨j, f.name, f.node⟩ : Descriptor) ≠ Descriptor.wild := fun h =>
    hr.ne_wild hf (congrArg Descriptor.id h)
  rw [hr.descriptor he, hr.descriptor hf]
  unfold Accepts
  simp only [hwild, false_or, hr.mem_ancestors_iff he hf, hr.node_eq_none_iff he]
  refine or_congr_right (or_congr_right (and_congr_right fun _ => ?_))
  constructor
  · rintro ⟨e', he', hvoid, hany, hmap, hc⟩
    cases he.symm.trans he'
    refine ⟨hvoid, hany, hmap, hc.imp ?_ (hconverter hany).mp⟩
    rintro ⟨f', hf', hty⟩
    cases hf.symm.trans hf'; exact hty
  · rintro ⟨hvoid, hany, hmap, hc⟩
    exact ⟨e, he, hvoid, hany, hmap, hc.imp (fun hty => ⟨f, hf, hty⟩) (hconverter hany).mpr⟩

/-- The wildcard, as the type of an argument, is accepted for no registered number. -/
theorem Sound.not_accepts_wild (hr : r.Sound) (hj : r.types.StandsFor j t) :
    ¬ r.Accepts Descriptor.wild (r.types.descriptor j) := by
  obtain ⟨f, hf, -⟩ := Option.map_eq_some_iff.mp hj
  have hne : (r.types.descriptor j).id ≠ TypeId.wild := by
    rw [TypeTable.descriptor_id]; exact hr.ne_wild hf
  rintro (hid | hwild | ⟨n, m, hn, -⟩ | ⟨-, e, he, -⟩)
  · exact absurd hid.symm hne
  · exact absurd (congrArg Descriptor.id hwild) hne
  · cases hn
  · exact absurd rfl (hr.ne_wild he)

/-- Between the descriptions of types in signatures, acceptance is a matter of the types alone,
    where maps have their own number. -/
theorem OfType.accepts_iff (hr : r.Sound) (hmap : r.types.byType.find? .map = some TypeId.map) (ha : r.OfType s a)
    (hb : r.OfType t b) : r.Accepts a b ↔ s.Suits r.Joins t := by
  by_cases ht : t = .any
  · subst ht
    obtain ⟨_, ⟨-, rfl⟩ | ⟨hne, -⟩, rfl⟩ := hb
    · exact ⟨fun _ => .any s, fun _ => .inr (.inl rfl)⟩
    · exact absurd rfl hne
  obtain ⟨j, hj, rfl⟩ := hb
  have hjt := hr.standsFor_of_numbers hj ht
  by_cases hs : s = .any
  · subst hs
    obtain ⟨_, ⟨-, rfl⟩ | ⟨hne, -⟩, rfl⟩ := ha
    · refine ⟨fun h => absurd h (hr.not_accepts_wild hjt), fun h => ?_⟩
      cases h with
      | same => exact absurd rfl ht
      | any => exact absurd rfl ht
      | converter _ _ hany => exact absurd rfl hany
    · exact absurd rfl hne
  obtain ⟨i, hi, rfl⟩ := ha
  have his := hr.standsFor_of_numbers hi hs
  have hid : i = j ↔ s = t :=
    ⟨fun h => hr.numbers_unique hi (h ▸ hj), fun h => hi.eq (h ▸ hj)⟩
  have hnum : r.types.Numbers .map TypeId.map := .inr ⟨by decide, hmap⟩
  have hjmap : j ≠ TypeId.map ↔ t ≠ .map :=
    not_congr ⟨fun h => hr.numbers_unique hj (h ▸ hnum), fun h => (h ▸ hj).eq hnum⟩
  rw [hr.accepts_iff his hjt, hid, hjmap]
  constructor
  · rintro (rfl | ⟨k, l, rfl, rfl, hchain⟩ | ⟨hcls, hvoid, hany, hmap, rfl | ⟨hjoin, -⟩⟩)
    · exact .same s
    · exact .ancestor hchain
    · exact .same t
    · exact .converter hcls hvoid hany hmap hjoin
  · intro h
    cases h with
    | same => exact .inl rfl
    | any => exact absurd rfl ht
    | @ancestor k l hchain => exact .inr (.inl ⟨k, l, rfl, rfl, hchain⟩)
    | converter hcls hvoid hany hmap hjoin => exact .inr (.inr ⟨hcls, hvoid, hany, hmap, .inr ⟨hjoin, hj⟩⟩)

end Registries

namespace World

variable {w : World} (hw : w.Reached)
include hw

/-- The description of a registered number describes it. -/
theorem Reached.describes_standsFor {id : TypeId} {t : Ty} (hid : w.types.StandsFor id t) :
    w.registries.Describes (w.types.descriptor id) := by
  obtain ⟨e, he, -⟩ := Option.map_eq_some_iff.mp hid
  exact hw.describes ((Table.contains_iff _ _).mpr ⟨e, he⟩)

/-- So does that of a type in signatures. -/
theorem Reached.describes_ofType {t : Ty} {p : Descriptor} (hp : w.registries.OfType t p) :
    w.registries.Describes p := by
  obtain ⟨id, hid, rfl⟩ := hp
  by_cases ht : t = .any
  · rcases hid with ⟨-, rfl⟩ | ⟨hne, -⟩
    · exact Reached.describes_wild
    · exact absurd ht hne
  · exact hw.describes_standsFor (hw.sound.standsFor_of_numbers hid ht)

/-- The type of maps keeps its number. -/
theorem Reached.byType_map : w.types.byType.find? .map = some TypeId.map :=
  (Leads.grows .refl hw).byType (by rw [fresh_eq]; decide)

theorem Reached.standsFor_map : w.types.StandsFor TypeId.map .map :=
  hw.sound.standsFor_of_numbers (.inr ⟨by decide, hw.byType_map⟩) (by decide)

end World

end Multimethod
