/-
  Multimethod.Proofs.Depth — a deeper limit on nested calls changes no result.

  How deep calls may nest decides only whether an operation ends. One that ends gives the
  same result and the same world under every greater limit (`Run.atDepth_le`): a caller
  matters by the calls it answers, and a greater limit answers all that a smaller one does.
-/
import Multimethod.Proofs.Program
import Multimethod.Proofs.Traversal

namespace Multimethod

/-- `c'` answers every call that `c` answers, in the same way. -/
def Caller.Extends (c c' : Caller) : Prop := ∀ s w p, c s w = some p → c' s w = some p

namespace Run

variable {α β : Type} {r : Run α}

/-- More answered calls do not change a result. -/
def Monotone (r : Run α) : Prop :=
  ∀ c c' : Caller, c.Extends c' → ∀ w p, r c w = some p → r c' w = some p

theorem monotone_pure (x : α) : Monotone (pure x : Run α) := fun _ _ _ _ _ h => h

theorem monotone_step (s : Step α) : Monotone (ofStep s) := fun _ _ _ _ _ h => h

theorem monotone_call (s : Script) : Monotone (call s) := fun _ _ hc w p h => hc s w p h

theorem Monotone.bind {f : α → Run β} (hr : Monotone r) (hf : ∀ x, Monotone (f x)) : Monotone (r >>= f) := by
  intro c c' hc w p h
  obtain ⟨⟨x, v⟩, hx, hy⟩ := Option.bind_eq_some_iff.mp h
  exact Option.bind_eq_some_iff.mpr ⟨(x, v), hr c c' hc w (x, v) hx, hf x c c' hc v p hy⟩

/-- Every operation is monotone: steps call nothing, and a call is answered as before. -/
theorem closed_monotone : Closed (fun _ _ => True) fun _ r => Monotone r where
  steps := ⟨fun _ => trivial, fun _ _ => trivial, trivial, fun _ => trivial, fun _ => trivial, fun _ => trivial,
    fun _ _ => trivial, trivial, fun _ => trivial, fun _ => trivial⟩
  addConverter _ := trivial
  setMaker _ _ := trivial
  addFactory _ _ := trivial
  step _ := monotone_step _
  call := monotone_call
  pure := monotone_pure
  bind := Monotone.bind

theorem monotone_isConvertible (a b : Descriptor) : Monotone (isConvertible a b) :=
  Closed.isConvertible closed_monotone a b

theorem monotone_allConvertible (args params : List Descriptor) : Monotone (allConvertible args params) :=
  Closed.allConvertible closed_monotone args params

theorem monotone_select {test : α → Run Bool} (ht : ∀ x, Monotone (test x)) (l : List α) :
    Monotone (select test l) := Closed.select closed_monotone ht l

theorem monotone_follow (s : Script) : Monotone (follow s) := Closed.follow closed_monotone s

end Run

theorem Script.run_succ (depth : Nat) : Caller.Extends (Script.run depth) (Script.run (depth + 1)) := by
  induction depth with
  | zero =>
    intro _ _ _ h
    cases h
  | succ depth ih => exact fun s w p h => Run.monotone_follow s _ _ ih w p h

theorem Script.run_le {depth depth' : Nat} (h : depth ≤ depth') :
    Caller.Extends (Script.run depth) (Script.run depth') := by
  induction h with
  | refl => exact fun _ _ _ h => h
  | step _ ih => exact fun s w p hp => Script.run_succ _ s w p (ih s w p hp)

/-- An operation that ends when calls nest less deep ends so when they may nest deeper. -/
theorem Run.atDepth_le {α : Type} {r : Run α} (hr : Monotone r) {depth depth' : Nat} (h : depth ≤ depth')
    {w : World} {p : α × World} (hp : r.atDepth depth w = some p) : r.atDepth depth' w = some p :=
  hr _ _ (Script.run_le h) w p hp

end Multimethod
