/-
  Multimethod.Proofs.Representation — the table of types in every world of a program.

  `TypeTable.Numbered` is what a reader of the table may rely on: the numbers in use have
  no gaps, user numbers are listed ascending, a type is bound to its least number and to no
  number of another type, and converters are kept under numbers in use or the wildcard. It
  holds after any operations in any order, and none of them changes the number of a type
  or what a number stands for.
-/
import Multimethod.Proofs.Runs

namespace Multimethod

open Registries (Grows)

namespace TypeTable

/-- The number is in use, or it is the wildcard's. -/
def Known (t : TypeTable) (id : TypeId) : Prop := id = TypeId.wild ∨ t.entries.contains id = true

/-- The representation invariant of the table. -/
structure Numbered (t : TypeTable) : Prop where
  registered : ∀ id, t.entries.contains id = true ↔
    (1 ≤ id.val ∧ id.val ≤ 12) ∨ (TypeId.firstUser ≤ id.val ∧ id.val < t.next)
  ascending : t.userTypes = (List.range' TypeId.firstUser (t.next - TypeId.firstUser)).map TypeId.mk
  injective : ∀ a b id, t.byType.find? a = some id → t.byType.find? b = some id → a = b
  bound : ∀ id e, t.entries.find? id = some e → ∃ i, t.byType.find? e.ty = some i
  least : ∀ ty id, t.byType.find? ty = some id → t.First (fun e => e.ty = ty) id
  converterKeys : ∀ s u, t.converters.contains (s, u) = true → t.Known s ∧ t.Known u

theorem filter_isUser_numbers (next : Nat) : (numbers next).filter TypeId.isUser =
    (List.range' TypeId.firstUser (next - TypeId.firstUser)).map TypeId.mk := by
  have hlow : (List.range' 1 12).filter (TypeId.isUser ∘ TypeId.mk) = [] := by decide
  have hhigh : (List.range' TypeId.firstUser (next - TypeId.firstUser)).filter (TypeId.isUser ∘ TypeId.mk) =
      List.range' TypeId.firstUser (next - TypeId.firstUser) := by
    refine List.filter_eq_self.mpr ?_
    intro i hi
    simpa [TypeId.isUser] using (List.mem_range'_1.mp hi).1
  rw [numbers, List.filter_map, List.filter_append, hlow, hhigh, List.nil_append]

end TypeTable

theorem Registries.Sound.known {r : Registries} (h : r.Sound) {t : Ty} {id : TypeId} (hn : r.types.Numbers t id) :
    r.types.Known id := by
  rcases hn with ⟨-, hw⟩ | ⟨-, hb⟩
  · exact .inl hw
  · obtain ⟨e, he, -⟩ := h.entry_of_byType hb
    exact .inr ((Table.contains_iff _ _).mpr ⟨e, he⟩)

theorem Registries.Sound.numbered {r : Registries} (h : r.Sound) : r.types.Numbered where
  registered id := (Table.contains_iff _ _).trans h.registered_iff
  ascending := by rw [TypeTable.userTypes, h.keys, TypeTable.filter_isUser_numbers]
  injective _ _ _ := h.ty_unique
  bound _ _ := h.bound
  least _ _ := h.first
  converterKeys s u hk := by
    obtain ⟨c, hc⟩ := (Table.contains_iff _ _).mp hk
    obtain ⟨hs, hu⟩ := h.converter hc
    exact ⟨h.known hs, h.known hu⟩

namespace World

/-- In every world that a program can get to the table is numbered without gaps; the number
    that a type was asked for stays its number and the least with that type; and a number
    keeps its type, its name and its node. -/
theorem Reached.representation {w : World} (hw : w.Reached) :
    w.types.Numbered ∧
      (∀ t v, (Step.idOf t w).2.Leads v → Step.idOf t v = ((Step.idOf t w).1, v) ∧
        v.types.First (fun e => e.ty = t) (Step.idOf t w).1) ∧
      ∀ v, w.Leads v → ∀ id e, w.types.entries.find? id = some e →
        ∃ f, v.types.entries.find? id = some f ∧ f.ty = e.ty ∧ f.name = e.name ∧ f.node = e.node := by
  refine ⟨hw.sound.numbered, fun t v hv => ?_, fun v hv id e he => (Leads.grows hw hv).entry he⟩
  have hreach := hw.leads (.idOf w t)
  have hb := (Leads.grows hreach hv).byType (Step.idOf_spec t w)
  exact ⟨Step.idOf_of_bound hb, (hreach.leads hv).sound.first hb⟩

/-- With a second number for the type of texts, they keep the first. -/
theorem representation_renamed : World.renamed.types.Numbered ∧
    World.renamed.types.userTypes = [⟨TypeId.firstUser⟩] ∧ (Step.idOf .text World.renamed).1 = ⟨9⟩ :=
  ⟨(Reached.representation reached_renamed).1, by rw [renamed_eq]; decide, by rw [renamed_eq]; decide⟩

end World

end Multimethod
