/-
  Multimethod.Proofs.Hierarchy — the nodes of a running program mirror its declared classes.

  Nodes are made on demand, from whatever class is asked for first, so nothing but the order
  in which they are made orders them: a node is made after the node it is linked to
  (`ClassCache.Ordered`). Every change of the registries keeps this (`Course.ordered`), and
  with soundness it gives the whole picture (`Sound.mirrors`): one node for each class, links
  along the declared parents, walks that end at the declared root, and `inherits` as the
  partial order that the declarations span (`ClassDecl.DerivesFrom`). In every world that a
  program can get to the cache is such a mirror, and no node in it ever changes
  (`World.Reached.classes_mirror`).
-/
import Multimethod.Proofs.Runs

namespace Multimethod

open Registries (Change Course)

/-! ## Declared classes -/

namespace ClassDecl

/-- The class that a class is declared to derive from. -/
def parent? : ClassDecl → Option ClassDecl
  | root _ => none
  | derived _ p => some p

/-- The root of the tree that a class is declared in. -/
def base : ClassDecl → ClassDecl
  | root l => root l
  | derived _ p => p.base

/-- `c` is `d`, or declared below it over any number of parents. -/
def DerivesFrom : ClassDecl → ClassDecl → Prop := Relation.ReflTransGen fun c p => c.parent? = some p

theorem parent?_base (c : ClassDecl) : c.base.parent? = none := by
  induction c with
  | root l => rfl
  | derived l p ih => exact ih

/-- The chain of a class lists what it derives from. -/
theorem mem_chain_iff {c d : ClassDecl} : d ∈ c.chain ↔ c.DerivesFrom d := by
  constructor
  · intro h
    induction c with
    | root l => rw [List.mem_singleton.mp h]; exact .refl
    | derived l p ih =>
      rcases List.mem_cons.mp h with rfl | h
      · exact .refl
      · exact .head rfl (ih h)
  · intro h
    induction h using Relation.ReflTransGen.head_induction_on with
    | refl => exact d.self_mem_chain
    | @head b p hbp _ ih =>
      cases b with
      | root l => cases hbp
      | derived l q => cases hbp; exact List.mem_cons_of_mem _ ih

theorem getLast?_chain (c : ClassDecl) : c.chain.getLast? = some c.base := by
  induction c with
  | root l => rfl
  | derived l p ih =>
    have hne : p.chain ≠ [] := List.ne_nil_of_mem p.self_mem_chain
    rw [chain, List.getLast?_cons_of_ne_nil hne, ih]; rfl

end ClassDecl

namespace ClassNode

/-- The ancestors of a node are the nodes that its links lead to. -/
theorem mem_ancestors_iff {n m : ClassNode} :
    m ∈ n.ancestors ↔ Relation.ReflTransGen (fun a b : ClassNode => a.superclass? = some b) n m := by
  constructor
  · intro h
    induction n with
    | root s c => rw [List.mem_singleton.mp h]
    | derived s c k ih =>
      rcases List.mem_cons.mp h with rfl | h
      · exact .refl
      · exact .head rfl (ih h)
  · intro h
    induction h using Relation.ReflTransGen.head_induction_on with
    | refl => exact m.self_mem_ancestors
    | @head a k hak _ ih =>
      cases a with
      | root s c => cases hak
      | derived s c b => cases hak; exact List.mem_cons_of_mem _ ih

end ClassNode

namespace ClassCache

variable {cache : ClassCache}

/-! ## The order in which nodes are made -/

/-- Each class was put in once, with a node made after the one it is linked to. -/
structure Ordered (cache : ClassCache) : Prop where
  nodup : cache.keys.Nodup
  above : ∀ {c n m}, cache.find? c = some n → n.superclass? = some m → m.serial < n.serial

theorem ordered_empty : Ordered .empty := ⟨List.nodup_nil, fun h => by simp at h⟩

/-- A new node, with the next serial number, comes after the one it is linked to. -/
theorem Ordered.insert (h : Ordered cache) {c : ClassDecl} {n : ClassNode} (hc : cache.find? c = none)
    (hn : ∀ m, n.superclass? = some m → m.serial < n.serial) : Ordered (Table.insert cache c n) := by
  refine ⟨?_, fun {d k m} hd hm => ?_⟩
  · rw [Table.keys_insert_new n hc]
    refine List.nodup_append.mpr ⟨h.nodup, List.pairwise_singleton _ c, fun d hd e he hde => ?_⟩
    rw [List.mem_singleton.mp he] at hde
    exact Table.not_mem_keys hc (hde ▸ hd)
  · rw [Table.find?_insert] at hd
    split at hd
    · cases hd; exact hn m hm
    · exact h.above hd hm

theorem Ordered.node (h : Ordered cache) (hs : Sound cache) (c : ClassDecl) : Ordered (ClassCache.node c cache).2.2 := by
  induction c with
  | root l =>
    cases hc : cache.find? (.root l) with
    | some n => simpa [node_of_cached hc] using h
    | none =>
      rw [node_root hc]
      exact h.insert hc fun m hm => by cases hm
  | derived l p ih =>
    cases hc : cache.find? (.derived l p) with
    | some n => simpa [node_of_cached hc] using h
    | none =>
      rw [node_derived hc]
      refine ih.insert ?_ fun m hm => ?_
      · rw [find?_node_of_not_mem cache (ClassDecl.derived_not_mem_chain l p), hc]
      · -- the parent's node is in the cache that the new node is counted in
        cases hm
        exact (hs.node p).serial_lt (find?_node_self p cache)

/-- A class with a node derives only from classes with nodes. -/
theorem Sound.exists_node (hs : Sound cache) {c d : ClassDecl} {n : ClassNode} (hc : cache.find? c = some n)
    (hd : d ∈ c.chain) : ∃ m, cache.find? d = some m := by
  induction c generalizing n with
  | root l => exact ⟨n, List.mem_singleton.mp hd ▸ hc⟩
  | derived l p ih =>
    rcases List.mem_cons.mp hd with rfl | hd
    · exact ⟨n, hc⟩
    · obtain ⟨s, m, hm, -⟩ := hs.linked hc
      exact ih hm hd

/-- After a class is asked for, it and the classes it derives from have nodes, and no others
    that had none. -/
theorem Sound.contains_node (hs : Sound cache) (c d : ClassDecl) :
    (ClassCache.node c cache).2.2.contains d = true ↔ cache.contains d = true ∨ c.DerivesFrom d := by
  rw [← ClassDecl.mem_chain_iff]
  simp only [Table.contains_iff]
  by_cases hd : d ∈ c.chain
  · obtain ⟨m, hm⟩ := (hs.node c).exists_node (find?_node_self c cache) hd
    exact ⟨fun _ => .inr hd, fun _ => ⟨m, hm⟩⟩
  · rw [find?_node_of_not_mem cache hd]
    exact ⟨.inl, fun h => h.resolve_right hd⟩

/-! ## The mirror -/

/-- The nodes of the cache are to each other as the classes are declared. -/
structure Mirrors (cache : ClassCache) : Prop where
  /-- No class has two nodes. -/
  once : cache.keys.Nodup
  decl : ∀ {c n}, cache.find? c = some n → n.decl = c
  /-- No two classes share a node, whatever their names are. -/
  same : ∀ {c d n m}, cache.find? c = some n → cache.find? d = some m → (n.same m = true ↔ c = d)
  /-- The superclass of a node is the node in the cache of the declared parent. -/
  superclass : ∀ {c n}, cache.find? c = some n → n.superclass?.map some = c.parent?.map cache.find?
  /-- The walk along superclasses meets the nodes of the classes that are declared on the
      way, each made before the one below it, and ends at the declared root. -/
  links : ∀ n m : ClassNode,
    m ∈ n.ancestors ↔ Relation.ReflTransGen (fun a b : ClassNode => a.superclass? = some b) n m
  ancestors : ∀ {c n}, cache.find? c = some n → n.ancestors.map some = c.chain.map cache.find?
  descending : ∀ {c n}, cache.find? c = some n → n.ancestors.Pairwise fun a b => b.serial < a.serial
  root : ∀ {c n}, cache.find? c = some n →
    ∃ m, n.ancestors.getLast? = some m ∧ cache.find? c.base = some m ∧ m.superclass? = none
  /-- A node inherits the nodes of the classes that its own is declared to derive from. -/
  inherits : ∀ {c d n m}, cache.find? c = some n → cache.find? d = some m →
    (n.inherits m = true ↔ c.DerivesFrom d)
  /-- Inheritance is a partial order of the nodes. -/
  refl : ∀ n : ClassNode, n.inherits n = true
  trans : ∀ {c d e n m k}, cache.find? c = some n → cache.find? d = some m → cache.find? e = some k →
    n.inherits m = true → m.inherits k = true → n.inherits k = true
  antisymm : ∀ {c d n m}, cache.find? c = some n → cache.find? d = some m →
    n.inherits m = true → m.inherits n = true → n = m

section

variable (hs : Sound cache) {c d : ClassDecl} {n m : ClassNode}
include hs

theorem Sound.map_superclass? (hc : cache.find? c = some n) :
    n.superclass?.map some = c.parent?.map cache.find? := by
  have hlinked := hs.linked hc
  cases c with
  | root l => obtain ⟨s, rfl⟩ := hlinked; rfl
  | derived l p => obtain ⟨s, m, hm, rfl⟩ := hlinked; exact congrArg some hm.symm

theorem Sound.map_ancestors (hc : cache.find? c = some n) : n.ancestors.map some = c.chain.map cache.find? := by
  induction c generalizing n with
  | root l =>
    obtain ⟨s, rfl⟩ := hs.linked hc
    simp only [ClassNode.ancestors, ClassDecl.chain_root, List.map_cons, List.map_nil, hc]
  | derived l p ih =>
    obtain ⟨s, m, hm, rfl⟩ := hs.linked hc
    simp only [ClassNode.ancestors, ClassDecl.chain_derived, List.map_cons, hc, ih hm]

/-- From the first node on, each was made before the one it is met after. -/
theorem Ordered.descending (ho : Ordered cache) (hc : cache.find? c = some n) :
    n.ancestors.Pairwise fun a b => b.serial < a.serial := by
  induction c generalizing n with
  | root l => obtain ⟨s, rfl⟩ := hs.linked hc; exact List.pairwise_singleton _ _
  | derived l p ih =>
    obtain ⟨s, m, hm, rfl⟩ := hs.linked hc
    have hlt : m.serial < (ClassNode.derived s (.derived l p) m).serial := ho.above hc rfl
    have hrest := ih hm
    refine List.pairwise_cons.mpr ⟨fun a ha => ?_, hrest⟩
    cases m with
    | root t e => rw [List.mem_singleton.mp ha]; exact hlt
    | derived t e k =>
      rcases List.mem_cons.mp ha with rfl | ha
      · exact hlt
      · exact Nat.lt_trans ((List.pairwise_cons.mp hrest).1 a ha) hlt

theorem Sound.getLast?_ancestors (hc : cache.find? c = some n) :
    ∃ m, n.ancestors.getLast? = some m ∧ cache.find? c.base = some m ∧ m.superclass? = none := by
  have hlast : n.ancestors.getLast?.map some = (c.chain.getLast?).map cache.find? := by
    rw [← List.getLast?_map, hs.map_ancestors hc, List.getLast?_map]
  rw [c.getLast?_chain] at hlast
  obtain ⟨m, hm, hbase⟩ := Option.map_eq_some_iff.mp hlast
  have hparent := hs.map_superclass? hbase.symm
  rw [c.parent?_base] at hparent
  exact ⟨m, hm, hbase.symm, Option.map_eq_none_iff.mp hparent⟩

theorem Sound.inherits_antisymm (ho : Ordered cache) (hc : cache.find? c = some n) (hd : cache.find? d = some m)
    (hnm : n.inherits m = true) (hmn : m.inherits n = true) : n = m := by
  have hm := (hs.inherits_iff_mem hc hd).mp hnm
  have hn := (hs.inherits_iff_mem hd hc).mp hmn
  -- each of two different nodes would have been made before the other
  have le : ∀ {e : ClassDecl} {a b : ClassNode}, cache.find? e = some a → b ∈ a.ancestors →
      b = a ∨ b.serial < a.serial := fun {e a b} he hb => by
    have hdesc := Ordered.descending hs ho he
    cases a with
    | root s f => exact .inl (List.mem_singleton.mp hb)
    | derived s f k =>
      rcases List.mem_cons.mp hb with rfl | hb
      · exact .inl rfl
      · exact .inr ((List.pairwise_cons.mp hdesc).1 b hb)
  rcases le hc hm with rfl | hlt
  · rfl
  · rcases le hd hn with rfl | hlt'
    · rfl
    · exact absurd hlt (Nat.lt_asymm hlt')

theorem Sound.mirrors (ho : Ordered cache) : Mirrors cache where
  once := ho.nodup
  decl := hs.decl
  same := hs.same_iff_class
  superclass := hs.map_superclass?
  links _ _ := ClassNode.mem_ancestors_iff
  ancestors := hs.map_ancestors
  descending := Ordered.descending hs ho
  root := hs.getLast?_ancestors
  inherits hc hd := (hs.inherits_iff hc hd).trans ClassDecl.mem_chain_iff
  refl := ClassNode.inherits_refl
  trans hc hd he hnm hmk := by
    rw [hs.inherits_iff hc hd, ClassDecl.mem_chain_iff] at hnm
    rw [hs.inherits_iff hd he, ClassDecl.mem_chain_iff] at hmk
    rw [hs.inherits_iff hc he, ClassDecl.mem_chain_iff]
    exact Relation.ReflTransGen.trans hnm hmk
  antisymm := hs.inherits_antisymm ho

end

end ClassCache

/-! ## The cache of a running program -/

namespace Registries

variable {ok : Registries → Registration → Prop} {r s : Registries}

theorem Change.ordered (hr : r.Sound) (ho : r.classes.Ordered) (h : Change ok r s) : s.classes.Ordered := by
  cases h with
  | node c => exact ho.node hr.classes c
  | _ => exact ho

theorem Course.ordered (hr : r.Sound) (ho : r.classes.Ordered) (h : Course ok r s) : s.classes.Ordered := by
  induction h with
  | refl => exact ho
  | tail hs hc ih => exact hc.ordered (Course.sound hr hs) ih

end Registries

namespace World

theorem Leads.node (w : World) (c : ClassDecl) : w.Leads (Step.node c w).2 := .step .refl (.act (.node c)) 0 rfl

theorem Reached.ordered {w : World} (hw : w.Reached) : w.registries.classes.Ordered :=
  Course.ordered Registries.sound_fresh ClassCache.ordered_empty (Leads.course .refl hw)

/-- In every world that a program can get to, whatever classes were asked for in whatever order,
    the cache mirrors the declared classes. A node in it never changes and is given whenever
    its class is asked for again. A class that is asked for has its node from then on, and so
    have the classes that it derives from; no other node is made. -/
theorem Reached.classes_mirror {w : World} (hw : w.Reached) :
    w.registries.classes.Mirrors ∧
    (∀ c n v, w.registries.classes.find? c = some n → w.Leads v →
      v.registries.classes.find? c = some n ∧ Step.node c v = (n, v)) ∧
    ∀ c, (Step.node c w).2.registries.classes.find? c = some (Step.node c w).1 ∧
      ∀ d, (Step.node c w).2.registries.classes.contains d = true ↔
        w.registries.classes.contains d = true ∨ c.DerivesFrom d := by
  refine ⟨hw.sound.classes.mirrors hw.ordered, fun c n v hc hv => ?_, fun c => ⟨Step.find?_node c w, fun d => ?_⟩⟩
  · have hkept := (hv.grows hw).node hc
    exact ⟨hkept, Step.node_of_cached hkept⟩
  · rw [Step.registries_node]
    exact hw.sound.classes.contains_node c d

/-- Two classes of one name, a class below the first of them asked for before both: the node of
    the lower class is linked to the one and inherits it, and does not inherit the other. -/
theorem Reached.classes_mirror_shapes :
    let shape : ClassDecl := .root ⟨"Shape", 0, 0⟩
    let circle : ClassDecl := .derived ⟨"Circle", 0, 0⟩ shape
    let other : ClassDecl := .root ⟨"Shape", 1, 0⟩
    let w := (Step.node other (Step.node circle fresh).2).2
    w.Reached ∧ ∃ n s o, w.registries.classes.find? circle = some n ∧ w.registries.classes.find? shape = some s ∧
      w.registries.classes.find? other = some o ∧ s.name = o.name ∧ n.superclass? = some s ∧
      n.inherits s = true ∧ s.same o = false ∧ n.inherits o = false := by
  intro shape circle other w
  have hw : w.Reached := (Leads.node fresh circle).trans (Leads.node _ other)
  obtain ⟨hmirrors, -, -⟩ := Reached.classes_mirror hw
  obtain ⟨n, hn⟩ : ∃ n, w.registries.classes.find? circle = some n := (Table.contains_iff _ _).mp (by decide)
  obtain ⟨s, hs⟩ : ∃ s, w.registries.classes.find? shape = some s := (Table.contains_iff _ _).mp (by decide)
  obtain ⟨o, ho⟩ : ∃ o, w.registries.classes.find? other = some o := (Table.contains_iff _ _).mp (by decide)
  refine ⟨hw, n, s, o, hn, hs, ho, ?_, ?_, ?_, ?_, ?_⟩
  · rw [ClassNode.name, ClassNode.name, hmirrors.decl hs, hmirrors.decl ho]; rfl
  · have hlink : n.superclass?.map some = some (some s) := (hmirrors.superclass hn).trans (congrArg some hs)
    obtain ⟨m, hm, hms⟩ := Option.map_eq_some_iff.mp hlink
    exact hm.trans hms
  · exact (hmirrors.inherits hn hs).mpr (.single rfl)
  · exact Bool.eq_false_iff.mpr fun h => absurd ((hmirrors.same hs ho).mp h) (by decide)
  · refine Bool.eq_false_iff.mpr fun h => ?_
    have hchain := ClassDecl.mem_chain_iff.mpr ((hmirrors.inherits hn ho).mp h)
    exact absurd hchain (by decide)

end World

end Multimethod
