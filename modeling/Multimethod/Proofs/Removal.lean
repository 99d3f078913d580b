/-
  Multimethod.Proofs.Removal — removing functions and matching them exactly agree on types.

  Removal asks whether descriptions are of one type (`Descriptor.same`: one number, or one
  node), exact matching asks the nodes as soon as there is one (`Descriptor.isExactly`).
  In general the first is not transitive and the two differ. For descriptions of registered
  numbers they are one: a number has one node at all times, so what tells a type is its node
  or else its number (`Descriptor.identity`), and both questions ask whether that is equal
  (`Describes.same_iff`, `Describes.isExactly_iff`). So a removal takes from the functions
  that match its parameter types exactly those with its result type (`Dispatcher.remove_exactly`).
-/
import Multimethod.Proofs.Shadowing

namespace Multimethod

namespace Descriptor

/-- What tells a type from others: the node of a class, else the number. -/
def identity (d : Descriptor) : ClassNode ⊕ TypeId :=
  match d.node with
  | some n => .inl n
  | none => .inr d.id

theorem same_refl (a : Descriptor) : a.same a = true := by simp [same]

theorem same_comm (a b : Descriptor) : a.same b = b.same a := by
  have hnode : sameNode a.node b.node = sameNode b.node a.node := by
    cases a.node <;> cases b.node <;> simp [sameNode, ClassNode.same, Bool.beq_comm]
  rw [same, same, hnode, Bool.beq_comm]

/-- Lists of one length are of the same types when they are at each place, in either order. -/
theorem sameList_eq_all {as bs : List Descriptor} (h : as.length = bs.length) :
    sameList as bs = (bs.zip as).all fun x => x.1.same x.2 := by
  induction as generalizing bs with
  | nil =>
    cases bs with
    | nil => rfl
    | cons b bs => cases h
  | cons a as ih =>
    cases bs with
    | nil => cases h
    | cons b bs =>
      have htail : as.length = bs.length := by simpa using h
      rw [sameList, ih htail, List.zip_cons_cons, List.all_cons, same_comm]

end Descriptor

namespace Registries

variable {r : Registries} {a b : Descriptor}

/-- Descriptions of one number have one node. -/
theorem Describes.node_eq (hr : r.Sound) (ha : r.Describes a) (hb : r.Describes b) (h : a.id = b.id) :
    a.node = b.node := by
  rcases ha.known with rfl | ⟨e, he, hae⟩
  · rw [hb.isWild hr (by simp [Descriptor.isWild, ← h]; rfl)]
  · rcases hb.known with rfl | ⟨f, hf, hbf⟩
    · exact absurd h (hr.ne_wild he)
    · rw [h] at he
      cases he.symm.trans hf
      exact hae.trans hbf.symm

theorem Describes.sameNode_iff (hr : r.Sound) (ha : r.Describes a) (hb : r.Describes b) {n m : ClassNode}
    (hn : a.node = some n) (hm : b.node = some m) : n.same m = true ↔ n = m := by
  obtain ⟨c, hc⟩ := ha.cached hr hn
  obtain ⟨d, hd⟩ := hb.cached hr hm
  exact hr.classes.same_iff hc hd

theorem Describes.isExactly_iff (hr : r.Sound) (ha : r.Describes a) (hb : r.Describes b) :
    a.isExactly b = true ↔ a.identity = b.identity := by
  unfold Descriptor.isExactly Descriptor.isClass Descriptor.identity
  cases hn : a.node with
  | none => cases b.node <;> simp [Descriptor.sameNode]
  | some n =>
    cases hm : b.node with
    | none => simp [Descriptor.sameNode]
    | some m => simp [Descriptor.sameNode, ha.sameNode_iff hr hb hn hm]

theorem Describes.same_iff (hr : r.Sound) (ha : r.Describes a) (hb : r.Describes b) :
    a.same b = true ↔ a.identity = b.identity := by
  rw [← ha.isExactly_iff hr hb, Descriptor.same, Bool.or_eq_true, beq_iff_eq]
  constructor
  · intro h
    rcases h with hid | hnode
    · -- one number has one node, so the nodes agree too
      rw [ha.isExactly_iff hr hb, Descriptor.identity, Descriptor.identity, ha.node_eq hr hb hid, hid]
    · have hclass : a.isClass = true := by
        cases hn : a.node <;> simp [Descriptor.isClass, Descriptor.sameNode, hn] at hnode ⊢
      simpa [Descriptor.isExactly, hclass] using hnode
  · intro h
    unfold Descriptor.isExactly at h
    split at h
    · exact .inr h
    · exact .inl (by simpa using h)

/-- On descriptions the two questions are one. -/
theorem Describes.isExactly_eq_same (hr : r.Sound) (ha : r.Describes a) (hb : r.Describes b) :
    a.isExactly b = a.same b :=
  Bool.eq_iff_iff.mpr ((ha.isExactly_iff hr hb).trans (ha.same_iff hr hb).symm)

theorem Describes.allExactly_eq (hr : r.Sound) {types params : List Descriptor} (ht : ∀ a ∈ types, r.Describes a)
    (hp : ∀ p ∈ params, r.Describes p) :
    Descriptor.allExactly types params = (types.zip params).all fun x => x.1.same x.2 := by
  unfold Descriptor.allExactly
  rw [Bool.eq_iff_iff, List.all_eq_true, List.all_eq_true]
  refine forall_congr' fun x => forall_congr' fun hx => ?_
  obtain ⟨hx1, hx2⟩ := List.of_mem_zip hx
  rw [(ht _ hx1).isExactly_eq_same hr (hp _ hx2)]

end Registries

/-- The function has as many parameter types as it has parameters, all taken by the program. -/
structure Function.Taken {n : Nat} (f : Function n) (w : World) : Prop where
  arity : f.params.length = n
  params : ∀ p ∈ f.params, p.Taken w

theorem Function.Taken.describes {n : Nat} {f : Function n} {w : World} (h : f.Taken w) :
    ∀ p ∈ f.params, w.registries.Describes p := fun p hp => (h.params p hp).describes.2

/-- Two functions are of the same types when one matches the parameter types of the other exactly
    and they have one result type. -/
theorem Function.sameTypes_eq {n : Nat} {f g : Function n} {w : World} (hw : w.registries.Sound) (hf : f.Taken w)
    (hg : g.Taken w) : g.sameTypes f = (Descriptor.allExactly f.params g.params && g.result.same f.result) := by
  have hlength : g.params.length = f.params.length := hg.arity.trans hf.arity.symm
  rw [Function.sameTypes, Descriptor.sameList_eq_all hlength,
    Registries.Describes.allExactly_eq hw hf.describes hg.describes]

namespace Dispatcher

variable {n : Nat} {w : World}

/-- What a function matches exactly, whatever the world. -/
theorem exactly_params (d : Dispatcher n) {f : Function n} (hf : f.Taken w) (v : World) :
    (d.exactly f.params v).1 = d.functions.filter fun g => Descriptor.allExactly f.params g.params := by
  have hle : f.params.length ≤ n := Nat.le_of_eq hf.arity
  rw [Run.exactly_fst]
  simp only [hle, decide_true, Bool.true_and]

theorem without_eq (hw : w.registries.Sound) (d : Dispatcher n) (hd : ∀ g ∈ d.functions, g.Taken w) {f : Function n}
    (hf : f.Taken w) : (d.without f).functions =
      d.functions.filter fun g => !(Descriptor.allExactly f.params g.params && g.result.same f.result) :=
  List.filter_congr fun g hg => by rw [Function.sameTypes_eq hw hf (hd g hg)]

/-- On descriptions that a program has taken, at whatever times and of whatever numbers, being of
    one type is an equivalence, and it is what exact matching asks at each place. So for a
    dispatcher whose functions have such parameter types, and a function `f` of that kind, the
    removal of `f` leaves all functions in order but those that match the parameter types of `f`
    exactly and have its result type; it counts these; and afterwards the functions that match
    are those that matched before and have another result type. -/
theorem remove_exactly (hw : w.Reached) :
    Equivalence (fun a b : {d : Descriptor // d.Taken w} => a.1.same b.1 = true) ∧
    (∀ types params : List Descriptor, (∀ a ∈ types, a.Taken w) → (∀ p ∈ params, p.Taken w) →
      Descriptor.allExactly types params = (types.zip params).all fun x => x.1.same x.2) ∧
    ∀ (n : Nat) (d : Dispatcher n), (∀ g ∈ d.functions, g.Taken w) → ∀ f : Function n, f.Taken w → ∀ u,
      (d.remove f u).1.1.functions =
        d.functions.filter (fun g => !(Descriptor.allExactly f.params g.params && g.result.same f.result)) ∧
      ∀ v,
        (d.exactly f.params v).1 = d.functions.filter (fun g => Descriptor.allExactly f.params g.params) ∧
        (d.remove f u).1.2 = ((d.exactly f.params v).1.filter fun g => g.result.same f.result).length ∧
        ((d.remove f u).1.1.exactly f.params v).1 =
          (d.exactly f.params v).1.filter fun g => !g.result.same f.result := by
  refine ⟨⟨fun a => a.1.same_refl, fun {a b} h => ?_, fun {a b c} hab hbc => ?_⟩, fun types params ht hp => ?_,
    fun n d hd f hf u => ?_⟩
  · rw [Descriptor.same_comm]; exact h
  · have ha := a.2.describes.2
    have hb := b.2.describes.2
    have hc := c.2.describes.2
    rw [ha.same_iff hw.sound hc]
    exact ((ha.same_iff hw.sound hb).mp hab).trans ((hb.same_iff hw.sound hc).mp hbc)
  · exact Registries.Describes.allExactly_eq hw.sound (fun a h => (ht a h).describes.2)
      fun p h => (hp p h).describes.2
  · have hrest := d.without_eq hw.sound hd hf
    rw [remove_fst]
    refine ⟨hrest, fun v => ⟨d.exactly_params hf v, ?_, ?_⟩⟩
    · have hcount := d.functions.length_eq_length_filter_add fun g =>
        Descriptor.allExactly f.params g.params && g.result.same f.result
      rw [exactly_params d hf, List.filter_filter, size, size, hrest, hcount, Nat.add_sub_cancel]
      exact congrArg List.length (List.filter_congr fun g _ => Bool.and_comm ..)
    · rw [exactly_params _ hf, exactly_params d hf, hrest, List.filter_filter, List.filter_filter]
      refine List.filter_congr fun g _ => ?_
      cases Descriptor.allExactly f.params g.params <;> simp

/-- The class of dogs has two numbers. Removing a function for the second one removes both functions
    for dogs that have its result type, also the one for the first number, and neither the one for
    texts nor the one for dogs with a text for result. -/
theorem remove_exactly_hound :
    let dog : Ty := .pointer (.root ⟨"Dog", 0, 4⟩)
    let w := (Step.addAlias dog "Hound" World.fresh).2
    let takes (i : Nat) (result : Descriptor) : Function 1 := ⟨none, [w.types.descriptor ⟨i⟩], result⟩
    let text := w.types.descriptor ⟨9⟩
    let d : Dispatcher 1 := ⟨[takes 1024 .wild, takes 9 .wild, takes 1025 .wild, takes 1024 text]⟩
    let f := takes 1025 .wild
    w.types.descriptor ⟨1024⟩ ≠ w.types.descriptor ⟨1025⟩ ∧
      (d.remove f w).1.1.functions = [takes 9 .wild, takes 1024 text] ∧ (d.remove f w).1.2 = 2 ∧
      ((d.remove f w).1.1.exactly f.params w).1 = [takes 1024 text] := by
  intro dog w takes text d f
  have hw : w.Reached := .addAlias World.fresh dog "Hound"
  have hnumbers : ∀ i ∈ [9, 1024, 1025], w.types.entries.contains ⟨i⟩ = true := by
    simp only [w, World.fresh_eq]
    decide
  have htaken {i : Nat} (hi : i ∈ [9, 1024, 1025]) (result : Descriptor) : (takes i result).Taken w :=
    ⟨rfl, fun p hp => by rw [List.mem_singleton.mp hp]; exact .number hw (hnumbers i hi)⟩
  have hd : ∀ g ∈ d.functions, g.Taken w := by
    intro g hg
    simp only [d, List.mem_cons, List.not_mem_nil, or_false] at hg
    rcases hg with rfl | rfl | rfl | rfl <;> exact htaken (by decide) _
  obtain ⟨-, -, hremoval⟩ := remove_exactly hw
  obtain ⟨hrest, hmatches⟩ := hremoval 1 d hd f (htaken (by decide) _) w
  obtain ⟨hexact, hcount, hafter⟩ := hmatches w
  have hmatch : Descriptor.allExactly f.params [w.types.descriptor ⟨1024⟩] = true ∧
      Descriptor.allExactly f.params [w.types.descriptor ⟨1025⟩] = true ∧
      Descriptor.allExactly f.params [w.types.descriptor ⟨9⟩] = false := by
    simp only [f, takes, w, World.fresh_eq]
    decide
  obtain ⟨hfirst, hsecond, htext⟩ := hmatch
  have hresult : f.result = .wild := rfl
  have hwild : Descriptor.same .wild .wild = true := by decide
  have hother : text.same .wild = false := by simp only [text, w, World.fresh_eq]; decide
  have hdiffer : w.types.descriptor ⟨1024⟩ ≠ w.types.descriptor ⟨1025⟩ := by simp only [w, World.fresh_eq]; decide
  refine ⟨hdiffer, hrest.trans ?_, hcount.trans ?_, hafter.trans ?_⟩
  · simp [d, takes, hfirst, hsecond, htext, hresult, hwild, hother]
  · rw [hexact]
    simp [d, takes, hfirst, hsecond, htext, hresult, hwild, hother]
  · rw [hexact]
    simp [d, takes, hfirst, hsecond, htext, hresult, hwild, hother]

end Dispatcher

end Multimethod
