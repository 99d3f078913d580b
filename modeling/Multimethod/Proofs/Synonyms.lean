/-
  Multimethod.Proofs.Synonyms — the numbers of one type convert to each other.

  Between two numbers of one type the test says yes by one of three rules: they are equal,
  they have one node, or what is made of the first is of the type of the second. Only `void`
  and `any`, of which nothing is made, and the guard for maps come before the last rule; so
  the numbers of all other types convert to each other, and of the numbers of maps only the
  first one is converted to by no other (`Sound.accepts_synonym`). Converting a content has
  no such guard: the box is found to be of the type and stays as it is.
-/
import Multimethod.Proofs.Aliases

namespace Multimethod

variable {t : Ty} {a b i : TypeId} {w : World}

/-- A number of a type is accepted for another number of it, but for the first number of maps. -/
theorem Registries.Sound.accepts_synonym {r : Registries} (hr : r.Sound) (hmap : r.types.StandsFor TypeId.map .map)
    (hvoid : t ≠ .void) (hany : t ≠ .any) (ha : r.types.StandsFor a t) (hb : r.types.StandsFor b t) :
    r.Accepts (r.types.descriptor a) (r.types.descriptor b) ↔ (b = TypeId.map → a = b) := by
  rw [hr.accepts_iff ha hb]
  by_cases hbm : b = TypeId.map
  · -- then the type is that of maps, which has no class
    obtain rfl : t = .map := Option.some.inj (hb.symm.trans (hbm ▸ hmap))
    constructor
    · rintro (hab | ⟨k, -, hk, -⟩ | ⟨-, -, -, hne, -⟩)
      · exact fun _ => hab
      · cases hk
      · exact absurd hbm hne
    · exact fun h => .inl (h hbm)
  · refine ⟨fun _ h => absurd h hbm, fun _ => .inr ?_⟩
    cases hcls : t.cls? with
    | some k =>
      have hk := Ty.eq_pointer hcls
      exact .inl ⟨k, k, hk, hk, k.self_mem_chain⟩
    | none => exact .inr ⟨rfl, hvoid, hany, hbm, .inl rfl⟩

namespace World

section

variable (hw : w.Reached) (ha : w.types.StandsFor a t)
include hw ha

/-- Where no factory is registered for the first number, the test says so and changes nothing. -/
theorem Reached.isConvertible_synonym (hb : w.types.StandsFor b t) (hvoid : t ≠ .void) (hany : t ≠ .any)
    (hf : w.registries.factories.find? a = none) (depth : Nat) :
    (Run.isConvertible (w.types.descriptor a) (w.types.descriptor b)).atDepth depth w =
      some (decide (b = TypeId.map → a = b), w) := by
  obtain ⟨ans, hrun, hans⟩ := Run.isConvertible_default hw.sound (hw.describes_standsFor ha) (hw.describes_standsFor hb)
    fun _ => (TypeTable.descriptor_id w.types a).symm ▸ hf
  have hspec := hans.trans (hw.sound.accepts_synonym hw.standsFor_map hvoid hany ha hb)
  have hanswer : ans = decide (b = TypeId.map → a = b) := Bool.eq_iff_iff.mpr (hspec.trans decide_eq_true_iff.symm)
  rw [← hanswer]
  exact hrun _

/-- A content in a box is converted to any number of its type without being asked for. -/
theorem Reached.convert_synonym {x : Content} (hx : x.ty = t) (hi : w.types.byType.find? t = some i) (c : Caller) :
    Run.convert (.plain i x) a c w = some (.plain i x, w) := by
  have hown : w.types.StandsFor i t := hw.sound.standsFor_of_numbers (.inr ⟨hx ▸ x.ty_ne_any, hi⟩) (hx ▸ x.ty_ne_any)
  obtain ⟨e, he, hety⟩ := Option.map_eq_some_iff.mp hown
  obtain ⟨f, hf, hfty⟩ := Option.map_eq_some_iff.mp ha
  have hsame : w.types.sameType i a = true := TypeTable.sameType_iff.mpr ⟨e, f, he, hf, hety.trans hfty.symm⟩
  have hdescribe : Step.describe (.plain i x) w = (w.types.descriptor i, w) := rfl
  rw [Run.convert_content, Run.tableConvert_eq hdescribe, TypeTable.descriptor_id, if_pos (.inr hsame)]
  rfl

/-- Two numbers of a type other than `void` and `any`, for neither of which a factory is
    registered, convert to each other: the test says yes at any depth and changes nothing, but
    says no where the target is the first number of maps and the source a further one. A
    content of the type, put into a box and converted to either number, is read as it was. -/
theorem Reached.synonyms_convert (hb : w.types.StandsFor b t) (hvoid : t ≠ .void) (hany : t ≠ .any)
    (hfa : w.registries.factories.find? a = none) (hfb : w.registries.factories.find? b = none) :
    (∀ depth, (Run.isConvertible (w.types.descriptor a) (w.types.descriptor b)).atDepth depth w =
      some (decide (b = TypeId.map → a = b), w)) ∧
    (∀ depth, (Run.isConvertible (w.types.descriptor b) (w.types.descriptor a)).atDepth depth w =
      some (decide (a = TypeId.map → b = a), w)) ∧
    ∀ x : Content, x.ty = t → ∃ boxed, Step.box (.plain x) w = (boxed, w) ∧
      ∀ id, id = a ∨ id = b → ∀ depth,
        (Run.convert boxed id).atDepth depth w = some (boxed, w) ∧
        (do Run.read (← Run.convert boxed id) t : Run (Option Value)).atDepth depth w =
          some (some (.plain x), w) := by
  refine ⟨hw.isConvertible_synonym ha hb hvoid hany hfa, hw.isConvertible_synonym hb ha hvoid hany hfb, fun x hx => ?_⟩
  obtain ⟨e, he, hety⟩ := Option.map_eq_some_iff.mp ha
  obtain ⟨i, hi⟩ := hw.sound.bound he
  rw [hety] at hi
  refine ⟨.plain i x, Step.box_plain (hx ▸ hi), fun id hid depth => ?_⟩
  have hstands : w.types.StandsFor id t := by
    rcases hid with rfl | rfl
    · exact ha
    · exact hb
  have hconvert : (Run.convert (.plain i x) id).atDepth depth w = some (.plain i x, w) :=
    hw.convert_synonym hstands hx hi _
  refine ⟨hconvert, Run.bind_eq_some.mpr ⟨_, w, hconvert, ?_⟩⟩
  subst hx
  exact Run.read_content i x _ w

end

/-- Texts have a second number: it converts to the first one and the first one to it, and a text
    that is converted to it is still the text. -/
theorem Reached.synonyms_convert_renamed :
    let x : Content := .text "x"
    (∀ depth, (Run.isConvertible (renamed.types.descriptor ⟨1024⟩) (renamed.types.descriptor ⟨9⟩)).atDepth depth
      renamed = some (true, renamed)) ∧
    (∀ depth, (Run.isConvertible (renamed.types.descriptor ⟨9⟩) (renamed.types.descriptor ⟨1024⟩)).atDepth depth
      renamed = some (true, renamed)) ∧
    ∀ depth, (do Run.read (← Run.convert (Step.box (.plain x) renamed).1 ⟨1024⟩) .text : Run (Option Value)).atDepth
      depth renamed = some (some (.plain x), renamed) := by
  intro x
  obtain ⟨hfirst, hsecond⟩ := standsFor_renamed
  obtain ⟨hto, hback, hread⟩ := Reached.synonyms_convert reached_renamed hsecond hfirst (by decide) (by decide)
    (factories_renamed _) (factories_renamed _)
  obtain ⟨boxed, hboxed, hall⟩ := hread x rfl
  refine ⟨hto, hback, fun depth => ?_⟩
  rw [hboxed]
  exact (hall _ (.inl rfl) depth).2

/-- Maps have a second number: the first one converts to it, but it does not convert to the first. -/
theorem synonyms_of_map :
    let w := (Step.addAlias .map "Dict" fresh).2
    w.Reached ∧ w.types.StandsFor ⟨11⟩ .map ∧ w.types.StandsFor ⟨1024⟩ .map ∧
      (∀ id, w.registries.factories.find? id = none) ∧
      ∀ depth,
        (Run.isConvertible (w.types.descriptor ⟨11⟩) (w.types.descriptor ⟨1024⟩)).atDepth depth w =
          some (true, w) ∧
        (Run.isConvertible (w.types.descriptor ⟨1024⟩) (w.types.descriptor ⟨11⟩)).atDepth depth w =
          some (false, w) := by
  intro w
  have hw : w.Reached := .addAlias fresh .map "Dict"
  have ha : w.types.StandsFor ⟨11⟩ .map := by simp only [w, fresh_eq, TypeTable.StandsFor]; decide
  have hb : w.types.StandsFor ⟨1024⟩ .map := by simp only [w, fresh_eq, TypeTable.StandsFor]; decide
  have hf : ∀ id, w.registries.factories.find? id = none :=
    Table.find?_of_isEmpty (by simp only [w, fresh_eq]; decide)
  refine ⟨hw, ha, hb, hf, fun depth => ⟨?_, ?_⟩⟩
  · exact hw.isConvertible_synonym ha hb (by decide) (by decide) (hf _) depth
  · exact hw.isConvertible_synonym hb ha (by decide) (by decide) (hf _) depth

end World

end Multimethod
