/-
  Multimethod.Proofs.Classes — the cache of class nodes mirrors the declared classes.

  A cache is sound when serial numbers tell its nodes apart and each node is linked to
  the cached node of its parent. `ClassCache.node` keeps a cache sound and never changes
  a node that is there (`Sound.node`, `find?_node_of_some`). In a sound cache, following
  the links between nodes is following the declarations (`Sound.inherits_iff`).
-/
import Multimethod.Class.Node

namespace Multimethod

namespace ClassDecl

@[simp] theorem chain_root (l : Level) : (root l).chain = [root l] := rfl

@[simp] theorem chain_derived (l : Level) (p : ClassDecl) : (derived l p).chain = derived l p :: p.chain := rfl

theorem self_mem_chain (c : ClassDecl) : c ∈ c.chain := by cases c <;> simp

theorem length_chain_le {c d : ClassDecl} (h : d ∈ c.chain) : d.chain.length ≤ c.chain.length := by
  induction c with
  | root l => simp only [chain_root, List.mem_singleton] at h; subst h; exact Nat.le_refl _
  | derived l p ih =>
    rcases List.mem_cons.mp h with rfl | h
    · exact Nat.le_refl _
    · have := ih h
      simp only [chain_derived, List.length_cons]; omega

theorem derived_not_mem_chain (l : Level) (p : ClassDecl) : derived l p ∉ p.chain := fun h => by
  have := length_chain_le h
  simp only [chain_derived, List.length_cons] at this; omega

end ClassDecl

namespace ClassCache

variable {cache : ClassCache}

/-! ## Making a node -/

theorem node_of_cached {c : ClassDecl} {n : ClassNode} (h : cache.find? c = some n) :
    node c cache = (n, [], cache) := by
  cases c <;> simp [node, h]

theorem node_root {l : Level} (h : cache.find? (.root l) = none) :
    node (.root l) cache =
      let n := fresh cache (.root l) none
      (n, [n], cache.insert (.root l) n) := by
  simp only [node, h]

/-- The node of a derived class is made after those of its parent. -/
theorem node_derived {l : Level} {p : ClassDecl} (h : cache.find? (.derived l p) = none) :
    node (.derived l p) cache =
      let (above, made, cache) := node p cache
      let n := fresh cache (.derived l p) (some above)
      (n, made ++ [n], cache.insert (.derived l p) n) := by
  simp only [node, h]

/-- A class has the node that was returned for it. -/
theorem find?_node_self (c : ClassDecl) (cache : ClassCache) :
    (node c cache).2.2.find? c = some (node c cache).1 := by
  cases h : cache.find? c with
  | some n => simp [node_of_cached h, h]
  | none =>
    cases c with
    | root l => simp [node_root h]
    | derived l p => simp [node_derived h]

/-- Only classes on the chain get a node. -/
theorem find?_node_of_not_mem {c d : ClassDecl} (cache : ClassCache) (h : d ∉ c.chain) :
    (node c cache).2.2.find? d = cache.find? d := by
  cases hc : cache.find? c with
  | some n => simp [node_of_cached hc]
  | none =>
    induction c with
    | root l =>
      have : ClassDecl.root l ≠ d := fun e => h (by rw [← e]; exact ClassDecl.self_mem_chain _)
      simp [node_root hc, this]
    | derived l p ih =>
      simp only [ClassDecl.chain_derived, List.mem_cons, not_or] at h
      have hd : ClassDecl.derived l p ≠ d := fun e => h.1 e.symm
      simp only [node_derived hc, Table.find?_insert, if_neg hd]
      cases hp : cache.find? p with
      | some m => simp [node_of_cached hp]
      | none => exact ih h.2 hp

/-- A node that was there stays. -/
theorem find?_node_of_some {c d : ClassDecl} {n : ClassNode} (h : cache.find? d = some n) :
    (node c cache).2.2.find? d = some n := by
  cases hc : cache.find? c with
  | some m => simp [node_of_cached hc, h]
  | none =>
    induction c with
    | root l =>
      have : ClassDecl.root l ≠ d := fun e => by simp [e, h] at hc
      simp [node_root hc, this, h]
    | derived l p ih =>
      have hd : ClassDecl.derived l p ≠ d := fun e => by simp [e, h] at hc
      simp only [node_derived hc, Table.find?_insert, if_neg hd]
      cases hp : cache.find? p with
      | some m => simp [node_of_cached hp, h]
      | none => exact ih hp

/-! ## Soundness -/

/-- `n` is a node of class `c`, linked to the cached node of the parent class. -/
def Linked (cache : ClassCache) : ClassDecl → ClassNode → Prop
  | .root l, n => ∃ s, n = .root s (.root l)
  | .derived l p, n => ∃ s m, cache.find? p = some m ∧ n = .derived s (.derived l p) m

structure Sound (cache : ClassCache) : Prop where
  serial_lt : ∀ {c n}, cache.find? c = some n → n.serial < cache.size
  serial_inj : ∀ {c d n m}, cache.find? c = some n → cache.find? d = some m → n.serial = m.serial → c = d
  linked : ∀ {c n}, cache.find? c = some n → Linked cache c n

theorem sound_empty : Sound .empty :=
  ⟨fun h => by simp at h, fun h => by simp at h, fun h => by simp at h⟩

theorem Linked.decl {c : ClassDecl} {n : ClassNode} (h : Linked cache c n) : n.decl = c := by
  cases c with
  | root l => obtain ⟨s, rfl⟩ := h; rfl
  | derived l p => obtain ⟨s, m, -, rfl⟩ := h; rfl

theorem Linked.mono {cache' : ClassCache} (hm : ∀ {d m}, cache.find? d = some m → cache'.find? d = some m)
    {c : ClassDecl} {n : ClassNode} (h : Linked cache c n) : Linked cache' c n := by
  cases c with
  | root l => exact h
  | derived l p => obtain ⟨s, m, hp, rfl⟩ := h; exact ⟨s, m, hm hp, rfl⟩

/-- A new node with the next serial number, linked as its class is declared, keeps the cache sound. -/
theorem Sound.insert (h : Sound cache) {c : ClassDecl} {n : ClassNode} (hc : cache.find? c = none)
    (hs : n.serial = cache.size) (hl : Linked cache c n) : Sound (Table.insert cache c n) := by
  have hsize := Table.size_insert_new n hc
  have keep : ∀ {d m}, cache.find? d = some m → (cache.insert c n).find? d = some m := by
    intro d m hd
    have : c ≠ d := fun e => by simp [e, hd] at hc
    simp [this, hd]
  refine ⟨fun {d m} hd => ?_, fun {d e m k} hd he hmk => ?_, fun {d m} hd => ?_⟩
  · rw [Table.find?_insert] at hd
    split at hd
    · cases hd; omega
    · have := h.serial_lt hd; omega
  · rw [Table.find?_insert] at hd he
    split at hd <;> split at he
    · simp_all
    · cases hd; have := h.serial_lt he; omega
    · cases he; have := h.serial_lt hd; omega
    · exact h.serial_inj hd he hmk
  · rw [Table.find?_insert] at hd
    split at hd
    · rename_i e; cases hd; subst e; exact hl.mono keep
    · exact (h.linked hd).mono keep

theorem Sound.node (h : Sound cache) (c : ClassDecl) : Sound (ClassCache.node c cache).2.2 := by
  induction c with
  | root l =>
    cases hc : cache.find? (.root l) with
    | some n => simpa [node_of_cached hc] using h
    | none =>
      rw [node_root hc]
      exact h.insert hc rfl ⟨_, rfl⟩
  | derived l p ih =>
    cases hc : cache.find? (.derived l p) with
    | some n => simpa [node_of_cached hc] using h
    | none =>
      rw [node_derived hc]
      refine ih.insert ?_ rfl ⟨_, _, find?_node_self p cache, rfl⟩
      rw [find?_node_of_not_mem cache (ClassDecl.derived_not_mem_chain l p), hc]

/-! ## Links follow the declarations -/

theorem Sound.decl (h : Sound cache) {c : ClassDecl} {n : ClassNode} (hc : cache.find? c = some n) : n.decl = c :=
  (h.linked hc).decl

theorem Sound.eq_of_same (h : Sound cache) {c d : ClassDecl} {n m : ClassNode} (hc : cache.find? c = some n)
    (hd : cache.find? d = some m) (e : n.same m = true) : c = d :=
  h.serial_inj hc hd (by simpa [ClassNode.same] using e)

/-- Cached nodes are one just when they are of one class. -/
theorem Sound.same_iff_class (h : Sound cache) {c d : ClassDecl} {n m : ClassNode} (hc : cache.find? c = some n)
    (hd : cache.find? d = some m) : n.same m = true ↔ c = d := by
  refine ⟨h.eq_of_same hc hd, fun e => ?_⟩
  subst e
  cases hc.symm.trans hd
  exact n.same_refl

/-- Cached nodes are one just when they are equal. -/
theorem Sound.same_iff (h : Sound cache) {c d : ClassDecl} {n m : ClassNode} (hc : cache.find? c = some n)
    (hd : cache.find? d = some m) : n.same m = true ↔ n = m := by
  constructor
  · intro e
    have hcd := h.eq_of_same hc hd e
    rw [hcd, hd] at hc
    exact (Option.some.inj hc).symm
  · intro e
    rw [e]; exact m.same_refl

/-- The ancestors of a cached node are the cached nodes of the chain of its class. -/
theorem Sound.mem_ancestors_iff (h : Sound cache) {c : ClassDecl} {n : ClassNode} (hc : cache.find? c = some n)
    {m : ClassNode} : m ∈ n.ancestors ↔ ∃ d ∈ c.chain, cache.find? d = some m := by
  induction c generalizing n with
  | root l =>
    obtain ⟨s, rfl⟩ := h.linked hc
    simp [ClassNode.ancestors, hc, eq_comm]
  | derived l p ih =>
    obtain ⟨s, k, hk, rfl⟩ := h.linked hc
    simp [ClassNode.ancestors, hc, ih hk, eq_comm]

theorem Sound.inherits_iff (h : Sound cache) {c d : ClassDecl} {n m : ClassNode} (hc : cache.find? c = some n)
    (hd : cache.find? d = some m) : n.inherits m = true ↔ d ∈ c.chain := by
  rw [ClassNode.inherits, List.any_eq_true]
  constructor
  · rintro ⟨a, ha, e⟩
    obtain ⟨b, hb, hba⟩ := (h.mem_ancestors_iff hc).mp ha
    exact h.eq_of_same hba hd e ▸ hb
  · exact fun hdc => ⟨m, (h.mem_ancestors_iff hc).mpr ⟨d, hdc, hd⟩, m.same_refl⟩

theorem Sound.inherits_iff_mem (h : Sound cache) {c d : ClassDecl} {n m : ClassNode} (hc : cache.find? c = some n)
    (hd : cache.find? d = some m) : n.inherits m = true ↔ m ∈ n.ancestors := by
  rw [h.inherits_iff hc hd, h.mem_ancestors_iff hc]
  refine ⟨fun hdc => ⟨d, hdc, hd⟩, ?_⟩
  rintro ⟨e, he, hem⟩
  exact h.eq_of_same hem hd m.same_refl ▸ he

end ClassCache

end Multimethod
