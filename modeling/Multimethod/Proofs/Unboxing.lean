/-
  Multimethod.Proofs.Unboxing — reading a box gives the value that was put in.

  Each kind of value goes into its own kind of box, and comes out as it went in: a content
  is found under its type before any converter is asked, an object is pointed to again as
  any class that its own one inherits, the unit value and boxes need no look at the box.
  So what is registered meanwhile cannot interfere (`unboxes`). The exception is a pointer
  to nothing: no object is found for it, and it comes out only as the default value of its
  type (`read_box_nowhere`).
-/
import Multimethod.Proofs.Converting

namespace Multimethod

namespace World

/-- A value that a program puts into a box is read from it at any later point, whatever was
    registered before and since, and nothing needs to be called for it. A pointer to nothing
    is not found in its box, but is the default value that is taken then. -/
theorem Reached.unboxes {w u : World} (hw : w.Reached) {x : Value} (hx : x.Conforms) (hu : (Step.box x w).2.Leads u)
    (depth : Nat) :
    ((Run.read (Step.box x w).1 x.ty).atDepth depth u).map Prod.fst = some x.present ∧
      ((Run.readOr (Step.box x w).1 x.ty).atDepth depth u).map Prod.fst = some x := by
  have hsound : u.registries.Sound := ((hw.leads (.box w x)).leads hu).sound
  exact ⟨Run.read_box w hsound hx _, Run.readOr_box w hsound hx _⟩

/-- A dog that was boxed as an animal is read as that animal again, though a converter and a
    factory of animals have been registered since. -/
theorem Reached.unboxes_upcast :
    let animal : ClassDecl := .root ⟨"Animal", 0, 4⟩
    let x : Value := .pointer ⟨animal, some ⟨0, .initial (.derived ⟨"Dog", 0, 40⟩ animal)⟩⟩
    let boxed := (Step.box x renamed).2
    let converted := (Step.addConverter ⟨.pointer animal, .pointer animal, fun _ => .decline⟩ boxed).2
    ((Run.read (Step.box x renamed).1 (.pointer animal)).atDepth 0
      (Step.addFactoryFor (.pointer animal) .decline converted).2).map Prod.fst = some (some x) := by
  intro animal x boxed converted
  have hx : x.Conforms := fun o ho => by
    obtain rfl := Option.some.inj ho
    decide
  have hu : boxed.Leads (Step.addFactoryFor (.pointer animal) .decline converted).2 :=
    (Leads.addConverter boxed _).trans (.addFactoryFor converted _ _)
  exact (Reached.unboxes reached_renamed hx hu 0).1

/-- A pointer to no dog makes a box that is not null and that converts to dogs, but no pointer
    to a dog is found in it. -/
theorem read_box_nowhere :
    let x : Value := .pointer (Handle.null (.root ⟨"Dog", 0, 4⟩))
    let b := (Step.box x fresh).1
    let w := (Step.box x fresh).2
    w.Reached ∧ b.isNull = false ∧ (Step.canConvert b (Step.typeId x.ty w).1 w).1 = true ∧
      ((Run.read b x.ty).atDepth 1 w).map (fun p => p.1.isNone) = some true := by
  intro x b w
  refine ⟨.box fresh x, ?_⟩
  simp only [w, b, fresh_eq]
  decide

end World

end Multimethod
