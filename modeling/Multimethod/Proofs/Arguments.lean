/-
  Multimethod.Proofs.Arguments — what matching sees of an argument, now and later.

  A box presents itself by a description (`Registries.Presents`). That of a live object
  changes with every further number of its class, but its node is always that of the
  object's class, and what is exactly or acceptably such an object can be told from the
  declared classes alone (`isExactly_of_class`, `accepts_of_class`). All other boxes keep
  their descriptions. So a parameter that was exactly right stays so, and one that was not
  does not become it (`Presents.isExactly_eq`); what is accepted stays so
  (`Presents.accepts_mono`).
-/
import Mathlib.Data.List.Forall2
import Multimethod.Proofs.Convertibility

namespace Multimethod

open Registries (Grows Course)

namespace Registries

variable {r s : Registries} {a a' p : Descriptor} {b : Box}

/-- `a` is a description of the box `b`. -/
def Presents (r : Registries) : Box → Descriptor → Prop
  | .null, a => a = Descriptor.wild
  | .plain id _, a | .object id none, a => r.types.entries.contains id = true ∧ a = r.types.descriptor id
  | .object _ (some o), a => r.Describes a ∧ ∃ n, a.node = some n ∧ r.classes.find? o.cls = some n

/-! ## Classes, by their declarations -/

section

variable {n : ClassNode} {k : ClassDecl}
variable (h : r.Sound) (hn : a.node = some n) (hk : r.classes.find? k = some n) (hp : r.Describes p)
include h hn hk hp

/-- Exactly an object of class `k` is what has the node of the class. -/
theorem isExactly_of_class : a.isExactly p = p.node.any fun m => decide (m.decl = k) := by
  have hclass : a.isExactly p = Descriptor.sameNode a.node p.node := by
    simp [Descriptor.isExactly, Descriptor.isClass, hn]
  rw [hclass, hn]
  cases hm : p.node with
  | none => rfl
  | some m =>
    obtain ⟨c, hc⟩ := hp.cached h hm
    rw [Option.any_some, h.classes.decl hc]
    refine Bool.eq_iff_iff.mpr ⟨fun hs => ?_, fun hd => ?_⟩
    · exact decide_eq_true (h.classes.eq_of_same hk hc hs).symm
    · have hck : c = k := of_decide_eq_true hd
      rw [hck, hk] at hc
      cases hc; exact n.same_refl

/-- An object of class `k` is accepted as any value, and as one of the classes of its chain. -/
theorem accepts_of_class (ha : r.Describes a) :
    r.Accepts a p ↔ p = Descriptor.wild ∨ ∃ m, p.node = some m ∧ m.decl ∈ k.chain := by
  constructor
  · rintro (hid | hw | ⟨n', m, hn', hm, hin⟩ | ⟨hnone, -⟩)
    · rcases hp.known with hw | ⟨f, hf, hfn⟩
      · exact .inl hw
      · rcases ha.known with rfl | ⟨e, he, hen⟩
        · cases hn
        · rw [hid, hf] at he
          cases he
          refine .inr ⟨n, hfn.trans (hen.symm.trans hn), ?_⟩
          rw [h.classes.decl hk]; exact k.self_mem_chain
    · exact .inl hw
    · cases hn.symm.trans hn'
      obtain ⟨c, hc, hcm⟩ := (h.classes.mem_ancestors_iff hk).mp hin
      exact .inr ⟨m, hm, by rw [h.classes.decl hcm]; exact hc⟩
    · rw [hn] at hnone; cases hnone
  · rintro (hw | ⟨m, hm, hin⟩)
    · exact .inr (.inl hw)
    · obtain ⟨c, hc⟩ := hp.cached h hm
      rw [h.classes.decl hc] at hin
      exact .inr (.inr (.inl ⟨n, m, hn, hm, (h.classes.mem_ancestors_iff hk).mpr ⟨c, hin, hc⟩⟩))

end

/-! ## Boxes -/

theorem Grows.contains (h : Grows r s) {id : TypeId} (hid : r.types.entries.contains id = true) :
    s.types.entries.contains id = true := by
  obtain ⟨e, he⟩ := (Table.contains_iff _ _).mp hid
  obtain ⟨f, hf, -⟩ := h.entry he
  exact (Table.contains_iff _ _).mpr ⟨f, hf⟩

theorem Presents.mono (h : Grows r s) (ha : r.Presents b a) : s.Presents b a := by
  have keep : ∀ {id : TypeId}, r.types.entries.contains id = true ∧ a = r.types.descriptor id →
      s.types.entries.contains id = true ∧ a = s.types.descriptor id := fun ⟨hid, ha⟩ => by
    obtain ⟨e, he⟩ := (Table.contains_iff _ _).mp hid
    exact ⟨h.contains hid, ha.trans (h.descriptor he).symm⟩
  cases b with
  | null => exact ha
  | plain id c => exact keep ha
  | object id target =>
    cases target with
    | none => exact keep ha
    | some o =>
      obtain ⟨hd, n, hn, hk⟩ := ha
      exact ⟨hd.mono h, n, hn, h.node hk⟩

section

variable {u u' : Registries} (hr : r.Sound) (hb : b.Fits r) (hg : Grows r u) (hg' : Grows r u')
variable (ha : u.Presents b a) (ha' : u'.Presents b a')
include hr hb hg hg' ha ha'

/-- Two descriptions of a box, however many numbers were given out between them, are one
    unless the box has a live object. -/
theorem Presents.unique (hnone : b.object? = none) : a = a' := by
  have same : ∀ {id e}, r.types.entries.find? id = some e → a = u.types.descriptor id →
      a' = u'.types.descriptor id → a = a' := fun he h h' => by
    rw [h, h', hg.descriptor he, hg'.descriptor he]
  cases hb with
  | null => exact ha.trans ha'.symm
  | plain hid _ =>
    obtain ⟨e, he, -⟩ := hr.entry_of_byType hid
    exact same he ha.2 ha'.2
  | @object id e k target he _ _ =>
    cases target with
    | none => exact same he ha.2 ha'.2
    | some o => cases hnone

/-- A parameter is exactly right for a box, or not, whenever the box is described. -/
theorem Presents.isExactly_eq (hu : u.Sound) (hu' : u'.Sound) (hp : r.Describes p) :
    a.isExactly p = a'.isExactly p := by
  cases hobj : b.object? with
  | none => rw [Presents.unique hr hb hg hg' ha ha' hobj]
  | some o =>
    cases b with
    | object id target =>
      cases target with
      | none => cases hobj
      | some o' =>
        obtain ⟨-, n, hn, hk⟩ := ha
        obtain ⟨-, n', hn', hk'⟩ := ha'
        rw [isExactly_of_class hu hn hk (hp.mono hg), isExactly_of_class hu' hn' hk' (hp.mono hg')]
    | _ => cases hobj

/-- A parameter that a box was accepted for is one that it is accepted for later. -/
theorem Presents.accepts_mono (hu : u.Sound) (hu' : u'.Sound) (hp : r.Describes p) (h : Grows u u')
    (hacc : u.Accepts a p) : u'.Accepts a' p := by
  cases hobj : b.object? with
  | none =>
    rw [← Presents.unique hr hb hg hg' ha ha' hobj]
    exact hacc.mono h
  | some o =>
    cases b with
    | object id target =>
      cases target with
      | none => cases hobj
      | some o' =>
        obtain ⟨hd, n, hn, hk⟩ := ha
        obtain ⟨hd', n', hn', hk'⟩ := ha'
        rw [accepts_of_class hu hn hk (hp.mono hg) hd] at hacc
        rw [accepts_of_class hu' hn' hk' (hp.mono hg') hd']
        exact hacc
    | _ => cases hobj

end

/-! ## Argument lists -/

/-- Each description is one of the box at its place. -/
abbrev PresentsAll (r : Registries) : List Box → List Descriptor → Prop := List.Forall₂ r.Presents

section

variable {u u' : Registries} {args : List Box} {types types' : List Descriptor}
variable (hr : r.Sound) (hb : ∀ b ∈ args, b.Fits r) (hg : Grows r u) (hg' : Grows r u')
variable (hu : u.Sound) (hu' : u'.Sound)
variable (ha : u.PresentsAll args types) (ha' : u'.PresentsAll args types')
include hr hb hg hg' hu hu' ha ha'

theorem PresentsAll.allExactly_eq {params : List Descriptor} (hp : ∀ p ∈ params, r.Describes p) :
    Descriptor.allExactly types params = Descriptor.allExactly types' params := by
  induction ha generalizing types' params with
  | nil => cases ha'; rfl
  | @cons b a args types hba _ ih =>
    cases ha' with
    | @cons _ a' _ types' hba' hrest =>
      cases params with
      | nil => rfl
      | cons p params =>
        have hhead := Presents.isExactly_eq hr (hb b (List.mem_cons_self ..)) hg hg' hba hba' hu hu'
          (hp p (List.mem_cons_self ..))
        have htail := ih (fun b h => hb b (List.mem_cons_of_mem _ h)) hrest
          fun p h => hp p (List.mem_cons_of_mem _ h)
        unfold Descriptor.allExactly at htail ⊢
        simp only [List.zip_cons_cons, List.all_cons, hhead, htail]

theorem PresentsAll.accepts_mono {params : List Descriptor} (hp : ∀ p ∈ params, r.Describes p) (h : Grows u u')
    (hacc : u.AcceptsAll types params) : u'.AcceptsAll types' params := by
  induction ha generalizing types' params with
  | nil =>
    cases ha'
    intro x hx
    cases hx
  | @cons b a args types hba _ ih =>
    cases ha' with
    | @cons _ a' _ types' hba' hrest =>
      cases params with
      | nil =>
        intro x hx
        cases hx
      | cons p params =>
        unfold AcceptsAll at hacc ⊢
        rw [List.zip_cons_cons] at hacc ⊢
        intro x hx
        rcases List.mem_cons.mp hx with rfl | hx
        · exact Presents.accepts_mono hr (hb b (List.mem_cons_self ..)) hg hg' hba hba' hu hu'
            (hp p (List.mem_cons_self ..)) h (hacc (a, p) (List.mem_cons_self ..))
        · exact ih (fun b h => hb b (List.mem_cons_of_mem _ h)) hrest
            (fun p h => hp p (List.mem_cons_of_mem _ h)) (fun x hx => hacc x (List.mem_cons_of_mem _ hx)) x hx

end

end Registries

/-! ## What matching does to a world -/

/-- `v` comes after `w` by descriptions of boxes and type tests alone, as matching does them. -/
inductive World.Tests (w : World) : World → Prop
  | refl : Tests w w
  | describe {u : World} (h : Tests w u) (b : Box) : Tests w (Step.describe b u).2
  | test {u v : World} (h : Tests w u) {a b : Descriptor} (ha : u.registries.Describes a) (depth : Nat) {ans : Bool}
      (hr : (Run.isConvertible a b).atDepth depth u = some (ans, v)) : Tests w v

theorem World.Tests.leads {w v : World} (h : w.Tests v) : w.Leads v := by
  induction h with
  | refl => exact .refl
  | @describe u _ b ih => exact ih.trans (.describe u b)
  | @test u v _ a b _ depth ans hr ih =>
    exact ih.step (.act (.isConvertible a b)) depth (Run.bind_eq_some.mpr ⟨ans, v, hr, rfl⟩)

theorem World.Tests.trans {w v u : World} (h : w.Tests v) (k : v.Tests u) : w.Tests u := by
  induction k with
  | refl => exact h
  | describe _ b ih => exact ih.describe b
  | test _ ha depth hr ih => exact ih.test ha depth hr

namespace Step

variable {w : World}

theorem typesOf_cons (b : Box) (args : List Box) (w : World) :
    typesOf (b :: args) w =
      ((describe b w).1 :: (typesOf args (describe b w).2).1, (typesOf args (describe b w).2).2) := by
  simp only [typesOf, List.mapM_cons, bind_apply, pure_apply]

/-- A box that fits is described as it presents itself after that. -/
theorem presents_describe (hw : w.Reached) {b : Box} (hb : b.Fits w.registries) :
    (describe b w).2.registries.Presents b (describe b w).1 := by
  cases hb with
  | null => exact rfl
  | plain hid _ =>
    obtain ⟨e, he, -⟩ := hw.sound.entry_of_byType hid
    exact ⟨(Table.contains_iff _ _).mpr ⟨e, he⟩, rfl⟩
  | @object id e k target he _ _ =>
    cases target with
    | none => exact ⟨(Table.contains_iff _ _).mpr ⟨e, he⟩, rfl⟩
    | some o =>
      obtain ⟨n, f, hn, hf, hfn, hd⟩ := describe_live hw.sound id o
      have hnode : (describe (.object id (some o)) w).1.node = some n := by rw [hd]
      have hv := hw.leads (.describe w (.object id (some o)))
      refine ⟨⟨.inr ⟨f, hf, hnode.trans hfn.symm⟩, fun hmap => ?_⟩, n, hnode, hn⟩
      rw [hnode, ← hfn]
      exact hv.map_node (hmap ▸ hf)

theorem presents_typesOf (hw : w.Reached) {args : List Box} (hb : ∀ b ∈ args, b.Fits w.registries) :
    w.Tests (typesOf args w).2 ∧ (typesOf args w).2.registries.PresentsAll args (typesOf args w).1 := by
  induction args generalizing w with
  | nil => exact ⟨.refl, .nil⟩
  | cons b args ih =>
    have htest : w.Tests (describe b w).2 := .describe .refl b
    have hv := hw.leads htest.leads
    have hgrow := World.Leads.grows hw htest.leads
    obtain ⟨htest', hall⟩ := ih hv fun b' h => (hb b' (List.mem_cons_of_mem _ h)).mono hgrow
    have hhead := presents_describe hw (hb b (List.mem_cons_self ..))
    rw [typesOf_cons]
    exact ⟨htest.trans htest', .cons (hhead.mono (World.Leads.grows hv htest'.leads)) hall⟩

end Step

/-- What a box is described as is a description. -/
theorem Registries.Presents.describes {w : World} (hw : w.Reached) {b : Box} {a : Descriptor}
    (ha : w.registries.Presents b a) : w.registries.Describes a := by
  cases b with
  | null => exact ha ▸ World.Reached.describes_wild
  | plain id c => exact ha.2 ▸ hw.describes ha.1
  | object id target =>
    cases target with
    | none => exact ha.2 ▸ hw.describes ha.1
    | some o => exact ha.1

theorem Registries.PresentsAll.describes {w : World} (hw : w.Reached) {args : List Box} {types : List Descriptor}
    (h : w.registries.PresentsAll args types) : ∀ a ∈ types, w.registries.Describes a := by
  induction h with
  | nil =>
    intro a ha
    cases ha
  | cons hba _ ih =>
    intro a ha
    rcases List.mem_cons.mp ha with rfl | ha
    · exact hba.describes hw
    · exact ih a ha

end Multimethod
