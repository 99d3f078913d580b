/-
  Multimethod.Proofs.Numbering — what the registries are like at all times.

  `Registries.Sound` is the invariant of the registries. The numbers in use are those of
  the builtin types and an unbroken range above them; the number of a type, and the
  number that a name stands for, is the first one whose entry has that type or name; the
  number kept for a class is the last one. The registries that a program starts with are
  sound (`sound_fresh`), and they stay so when an entry is added (`Sound.enter`).

  A program starts with builtin types and converters that are put in one by one. They have
  different keys, so its tables are the lists of them (`World.fresh_eq`).
-/
import Mathlib.Data.List.Nodup
import Multimethod.World
import Multimethod.Proofs.Classes

namespace Multimethod

theorem Ty.eq_pointer {t : Ty} {c : ClassDecl} (h : t.cls? = some c) : t = .pointer c := by
  cases t <;> cases h; rfl

namespace TypeTable

variable {t : TypeTable}

/-- The numbers in use when `next` is the next one, in the order of the entries. -/
def numbers (next : Nat) : List TypeId :=
  (List.range' 1 12 ++ List.range' TypeId.firstUser (next - TypeId.firstUser)).map TypeId.mk

/-- `id` is the least number whose entry is a `p`. -/
def First (t : TypeTable) (p : Entry → Prop) (id : TypeId) : Prop :=
  (∃ e, t.entries.find? id = some e ∧ p e) ∧ ∀ j e, t.entries.find? j = some e → p e → id.val ≤ j.val

/-- `id` is the greatest number whose entry is a `p`. -/
def Last (t : TypeTable) (p : Entry → Prop) (id : TypeId) : Prop :=
  (∃ e, t.entries.find? id = some e ∧ p e) ∧ ∀ j e, t.entries.find? j = some e → p e → j.val ≤ id.val

/-- `id` is the number of a type in boxes and signatures. -/
def Numbers (t : TypeTable) (ty : Ty) (id : TypeId) : Prop :=
  (ty = .any ∧ id = TypeId.wild) ∨ (ty ≠ .any ∧ t.byType.find? ty = some id)

/-- Two numbers are of one type just when they are registered for it. -/
theorem sameType_iff {t : TypeTable} {a b : TypeId} : t.sameType a b = true ↔
    ∃ e f, t.entries.find? a = some e ∧ t.entries.find? b = some f ∧ e.ty = f.ty := by
  unfold sameType
  cases t.entries.find? a <;> cases t.entries.find? b <;> simp

theorem mem_numbers {next : Nat} (h : TypeId.firstUser ≤ next) {id : TypeId} :
    id ∈ numbers next ↔ (1 ≤ id.val ∧ id.val ≤ 12) ∨ (TypeId.firstUser ≤ id.val ∧ id.val < next) := by
  obtain ⟨v⟩ := id
  simp only [numbers, List.mem_map, List.mem_append, List.mem_range'_1, TypeId.mk.injEq, exists_eq_right]
  omega

theorem numbers_succ {next : Nat} (h : TypeId.firstUser ≤ next) :
    numbers (next + 1) = numbers next ++ [⟨next⟩] := by
  obtain ⟨k, rfl⟩ := Nat.exists_eq_add_of_le h
  have e : TypeId.firstUser + k + 1 - TypeId.firstUser = k + 1 := by omega
  simp [numbers, e, List.range'_concat]

theorem First.unique {p : Entry → Prop} {i j : TypeId} (hi : t.First p i) (hj : t.First p j) : i = j := by
  obtain ⟨⟨e, he, hpe⟩, hi⟩ := hi
  obtain ⟨⟨f, hf, hpf⟩, hj⟩ := hj
  have h : i.val = j.val := Nat.le_antisymm (hi j f hf hpf) (hj i e he hpe)
  cases i; cases j; simpa using h

theorem Last.unique {p : Entry → Prop} {i j : TypeId} (hi : t.Last p i) (hj : t.Last p j) : i = j := by
  obtain ⟨⟨e, he, hpe⟩, hi⟩ := hi
  obtain ⟨⟨f, hf, hpf⟩, hj⟩ := hj
  have h : i.val = j.val := Nat.le_antisymm (hj i e he hpe) (hi j f hf hpf)
  cases i; cases j; simpa using h

theorem descriptor_id (t : TypeTable) (id : TypeId) : (t.descriptor id).id = id := by
  unfold descriptor descriptor?
  split
  · rename_i h
    have hw : id = TypeId.wild := by simpa [TypeId.isWild] using h
    rw [hw]; rfl
  · cases t.entries.find? id <;> rfl

/-- A number that is not registered is described without a node. -/
theorem node_descriptor {t : TypeTable} {id : TypeId} (h : t.entries.find? id = none) :
    (t.descriptor id).node = none := by
  simp only [descriptor, descriptor?, h, Option.map_none, Option.getD_none]
  split <;> rfl

/-! ## Adding an entry -/

/-- The table with one more entry under the next number, its type and its name bound unless they are. -/
def enter (t : TypeTable) (e : Entry) : TypeTable :=
  { (t.allocate e).2 with byType := t.byType.insertNew e.ty ⟨t.next⟩ }

@[simp] theorem entries_enter (t : TypeTable) (e : Entry) : (t.enter e).entries = t.entries.insert ⟨t.next⟩ e := rfl

@[simp] theorem byType_enter (t : TypeTable) (e : Entry) :
    (t.enter e).byType = t.byType.insertNew e.ty ⟨t.next⟩ := rfl

@[simp] theorem byName_enter (t : TypeTable) (e : Entry) :
    (t.enter e).byName = t.byName.insertNew e.name ⟨t.next⟩ := rfl

@[simp] theorem converters_enter (t : TypeTable) (e : Entry) : (t.enter e).converters = t.converters := rfl

@[simp] theorem next_enter (t : TypeTable) (e : Entry) : (t.enter e).next = t.next + 1 := rfl

/-- The next number becomes the highest of the entry's class. -/
theorem find?_byClass_enter (h : ∀ {s i}, t.byClass.find? s = some i → i.val < t.next) (e : Entry) (s : Nat) :
    (t.enter e).byClass.find? s =
      if e.node.map ClassNode.serial = some s then some ⟨t.next⟩ else t.byClass.find? s := by
  cases hn : e.node with
  | none => simp [enter, allocate, hn]
  | some n =>
    cases hb : t.byClass.find? n.serial with
    | none => simp [enter, allocate, hn, hb]
    | some i => simp [enter, allocate, hn, hb, h hb]

theorem bindType_allocate {e : Entry} (h : t.byType.find? e.ty = none) :
    (t.allocate e).2.bindType e.ty ⟨t.next⟩ = t.enter e := by
  simp [enter, bindType, Table.insertNew, Table.contains, h, allocate]

theorem allocate_of_bound {e : Entry} {i : TypeId} (h : t.byType.find? e.ty = some i) :
    (t.allocate e).2 = t.enter e := by
  simp [enter, Table.insertNew, Table.contains, h, allocate]

section Enter

variable (hlt : ∀ {j e}, t.entries.find? j = some e → j.val < t.next)
include hlt

theorem find?_next : t.entries.find? ⟨t.next⟩ = none := by
  cases h : t.entries.find? ⟨t.next⟩ with
  | none => rfl
  | some e => exact absurd (hlt h) (Nat.lt_irrefl _)

theorem find?_entries_enter_of_some {j : TypeId} {e f : Entry} (hj : t.entries.find? j = some f) :
    (t.enter e).entries.find? j = some f := by
  have hne : (⟨t.next⟩ : TypeId) ≠ j := fun h => by
    have := hlt hj
    rw [← h] at this; exact Nat.lt_irrefl _ this
  simp [hne, hj]

theorem First.enter {p : Entry → Prop} {i : TypeId} (h : t.First p i) (e : Entry) : (t.enter e).First p i := by
  obtain ⟨⟨f, hf, hp⟩, hmin⟩ := h
  refine ⟨⟨f, find?_entries_enter_of_some hlt hf, hp⟩, fun j g hj hg => ?_⟩
  simp only [entries_enter, Table.find?_insert] at hj
  split at hj
  · rename_i hn; subst hn
    exact Nat.le_of_lt (hlt hf)
  · exact hmin j g hj hg

omit hlt in
theorem First.enter_new {p : Entry → Prop} {e : Entry} (hn : ∀ j f, t.entries.find? j = some f → ¬ p f) (he : p e) :
    (t.enter e).First p ⟨t.next⟩ := by
  refine ⟨⟨e, by simp, he⟩, ?_⟩
  intro j f hj hf
  simp only [entries_enter, Table.find?_insert] at hj
  split at hj
  · rename_i h; subst h; exact Nat.le_refl _
  · exact absurd hf (hn j f hj)

theorem Last.enter {p : Entry → Prop} {i : TypeId} (h : t.Last p i) {e : Entry} (he : ¬ p e) :
    (t.enter e).Last p i := by
  obtain ⟨⟨f, hf, hp⟩, hmax⟩ := h
  refine ⟨⟨f, find?_entries_enter_of_some hlt hf, hp⟩, fun j g hj hg => ?_⟩
  simp only [entries_enter, Table.find?_insert] at hj
  split at hj
  · cases hj; exact absurd hg he
  · exact hmax j g hj hg

theorem Last.enter_new {p : Entry → Prop} {e : Entry} (he : p e) : (t.enter e).Last p ⟨t.next⟩ := by
  refine ⟨⟨e, by simp, he⟩, ?_⟩
  intro j f hj _
  simp only [entries_enter, Table.find?_insert] at hj
  split at hj
  · rename_i h; subst h; exact Nat.le_refl _
  · exact Nat.le_of_lt (hlt hj)

omit hlt in
theorem eq_or_find?_of_enter {j : TypeId} {e f : Entry} (hj : (t.enter e).entries.find? j = some f) :
    f = e ∨ t.entries.find? j = some f := by
  simp only [entries_enter, Table.find?_insert] at hj
  split at hj
  · cases hj; exact .inl rfl
  · exact .inr hj

section

variable {κ : Type} [DecidableEq κ] {key : Entry → κ} {index : Table κ TypeId}
variable (hall : ∀ {j f}, t.entries.find? j = some f → ∃ i, index.find? (key f) = some i)
include hall

/-- An index of first numbers stays one when the new number is put in for a key that has none. -/
theorem first_insertNew (hfirst : ∀ {k i}, index.find? k = some i → t.First (fun f => key f = k) i) (e : Entry)
    {k : κ} {i : TypeId} (hk : (index.insertNew (key e) ⟨t.next⟩).find? k = some i) :
    (t.enter e).First (fun f => key f = k) i := by
  rw [Table.find?_insertNew] at hk
  split at hk
  · rename_i he; subst he
    cases hf : index.find? (key e) with
    | none =>
      simp only [hf, Option.getD_none, Option.some.injEq] at hk; subst hk
      refine First.enter_new (fun j f hj hkey => ?_) rfl
      obtain ⟨i, hi⟩ := hall hj
      rw [hkey, hf] at hi; cases hi
    | some i' =>
      simp only [hf, Option.getD_some, Option.some.injEq] at hk; subst hk
      exact (hfirst hf).enter hlt e
  · exact (hfirst hk).enter hlt e

omit hlt in
theorem exists_insertNew {j : TypeId} {e f : Entry} (hj : (t.enter e).entries.find? j = some f) :
    ∃ i, (index.insertNew (key e) ⟨t.next⟩).find? (key f) = some i := by
  rw [Table.find?_insertNew]
  split
  · exact ⟨_, rfl⟩
  · rename_i hne
    rcases eq_or_find?_of_enter hj with rfl | hj
    · exact absurd rfl hne
    · exact hall hj

end

end Enter

end TypeTable

namespace Registries

variable {r : Registries}

/-- The node of an entry is the one of its type's class, which is cached; other types have none. -/
def NodeFits (r : Registries) (e : Entry) : Prop :=
  match e.ty.cls? with
  | some c => ∃ n, r.classes.find? c = some n ∧ e.node = some n
  | none => e.node = none

theorem NodeFits.cls_none {e : Entry} (h : r.NodeFits e) (hn : e.node = none) : e.ty.cls? = none := by
  unfold NodeFits at h
  split at h
  · obtain ⟨n, -, he⟩ := h
    rw [hn] at he; cases he
  · assumption

/-- The invariant of the registries. -/
structure Sound (r : Registries) : Prop where
  classes : r.classes.Sound
  keys : r.types.entries.keys = TypeTable.numbers r.types.next
  user_le : TypeId.firstUser ≤ r.types.next
  node : ∀ {id e}, r.types.entries.find? id = some e → r.NodeFits e
  maker : ∀ {id e}, r.types.entries.find? id = some e → e.node = none → e.maker = none
  first : ∀ {ty id}, r.types.byType.find? ty = some id → r.types.First (fun e => e.ty = ty) id
  bound : ∀ {id e}, r.types.entries.find? id = some e → ∃ i, r.types.byType.find? e.ty = some i
  firstNamed : ∀ {name id}, r.types.byName.find? name = some id → r.types.First (fun e => e.name = name) id
  named : ∀ {id e}, r.types.entries.find? id = some e → ∃ i, r.types.byName.find? e.name = some i
  last : ∀ {s id}, r.types.byClass.find? s = some id →
    r.types.Last (fun e => e.node.map ClassNode.serial = some s) id
  ranked : ∀ {id e n}, r.types.entries.find? id = some e → e.node = some n →
    ∃ i, r.types.byClass.find? n.serial = some i
  converter : ∀ {s u c}, r.types.converters.find? (s, u) = some c →
    r.types.Numbers c.source s ∧ r.types.Numbers c.target u

theorem Sound.registered_iff (h : r.Sound) {id : TypeId} :
    (∃ e, r.types.entries.find? id = some e) ↔
      (1 ≤ id.val ∧ id.val ≤ 12) ∨ (TypeId.firstUser ≤ id.val ∧ id.val < r.types.next) := by
  rw [← TypeTable.mem_numbers h.user_le, ← h.keys, Table.mem_keys_iff, Table.contains_iff]

theorem Sound.lt_next (h : r.Sound) {id : TypeId} {e : Entry} (he : r.types.entries.find? id = some e) :
    id.val < r.types.next := by
  have hu := h.user_le
  have : TypeId.firstUser = 1024 := rfl
  rcases h.registered_iff.mp ⟨e, he⟩ with h | h <;> omega

theorem Sound.ne_wild (h : r.Sound) {id : TypeId} {e : Entry} (he : r.types.entries.find? id = some e) :
    id ≠ TypeId.wild := by
  rintro rfl
  rcases h.registered_iff.mp ⟨e, he⟩ with h | h
  · exact absurd h.1 (by decide)
  · exact absurd h.1 (by decide)

/-- The description of a registered number. -/
theorem Sound.descriptor (h : r.Sound) {id : TypeId} {e : Entry} (he : r.types.entries.find? id = some e) :
    r.types.descriptor id = ⟨id, e.name, e.node⟩ := by
  simp [TypeTable.descriptor, TypeTable.descriptor?, TypeId.isWild, h.ne_wild he, he]

/-- The node of an entry of a pointer type is the cached one of its class. -/
theorem Sound.node_of_pointer (h : r.Sound) {id : TypeId} {e : Entry} {c : ClassDecl}
    (he : r.types.entries.find? id = some e) (hc : e.ty = .pointer c) :
    ∃ n, r.classes.find? c = some n ∧ e.node = some n := by
  have hfit := h.node he
  simpa only [NodeFits, hc, Ty.cls?] using hfit

/-- Other types have no node. -/
theorem Sound.node_of_plain (h : r.Sound) {id : TypeId} {e : Entry} (he : r.types.entries.find? id = some e)
    (hc : e.ty.cls? = none) : e.node = none := by
  have hfit := h.node he
  simpa only [NodeFits, hc] using hfit

/-- An entry with a node is of the pointer type of the node's class, whose node is cached. -/
theorem Sound.pointer_of_node (h : r.Sound) {id : TypeId} {e : Entry} {n : ClassNode}
    (he : r.types.entries.find? id = some e) (hn : e.node = some n) :
    ∃ c, e.ty = .pointer c ∧ r.classes.find? c = some n := by
  cases hc : e.ty.cls? with
  | none => cases hn.symm.trans (h.node_of_plain he hc)
  | some c =>
    have hty := Ty.eq_pointer hc
    obtain ⟨m, hm, hem⟩ := h.node_of_pointer he hty
    cases hn.symm.trans hem
    exact ⟨c, hty, hm⟩

/-- The entry of a type's own number. -/
theorem Sound.entry_of_byType (h : r.Sound) {ty : Ty} {id : TypeId} (hb : r.types.byType.find? ty = some id) :
    ∃ e, r.types.entries.find? id = some e ∧ e.ty = ty := (h.first hb).1

/-- No two types have one number. -/
theorem Sound.ty_unique (h : r.Sound) {a b : Ty} {id : TypeId} (ha : r.types.byType.find? a = some id)
    (hb : r.types.byType.find? b = some id) : a = b := by
  obtain ⟨e, he, rfl⟩ := h.entry_of_byType ha
  obtain ⟨f, hf, rfl⟩ := h.entry_of_byType hb
  cases he.symm.trans hf; rfl

/-! ## Adding an entry -/

/-- An entry may be added for a type that has none, or as a further one of a type under a free name. -/
structure MayEnter (r : Registries) (e : Entry) : Prop where
  node : r.NodeFits e
  origin : (r.types.byType.find? e.ty = none ∧ e.maker = none) ∨
    ∃ id f, r.types.byType.find? e.ty = some id ∧ r.types.entries.find? id = some f ∧
      r.types.byName.find? e.name = none ∧ e = { f with name := e.name }

theorem MayEnter.maker_none (h : r.Sound) {e : Entry} (ha : r.MayEnter e) (hn : e.node = none) : e.maker = none := by
  rcases ha.origin with ⟨-, hm⟩ | ⟨i, f, -, hf, -, he⟩
  · exact hm
  · have hnone : f.node = none := (congrArg Entry.node he).symm.trans hn
    have hm := h.maker hf hnone
    exact (congrArg Entry.maker he).trans hm

theorem Sound.enter (h : r.Sound) {e : Entry} (ha : r.MayEnter e) :
    Sound { r with types := r.types.enter e } := by
  have hlt : ∀ {j f}, r.types.entries.find? j = some f → j.val < r.types.next := h.lt_next
  have hclass : ∀ {s i}, r.types.byClass.find? s = some i → i.val < r.types.next := fun hs => by
    obtain ⟨⟨_, hf, -⟩, -⟩ := h.last hs
    exact hlt hf
  have keep : ∀ {ty i}, r.types.Numbers ty i → (r.types.enter e).Numbers ty i := by
    rintro ty i (hw | ⟨hne, hb⟩)
    · exact .inl hw
    · refine .inr ⟨hne, ?_⟩
      by_cases hty : e.ty = ty
      · subst hty; simp [hb]
      · simp [hty, hb]
  exact {
    classes := h.classes
    keys := by
      rw [TypeTable.entries_enter, TypeTable.next_enter, Table.keys_insert_new e (TypeTable.find?_next hlt), h.keys,
        TypeTable.numbers_succ h.user_le]
    user_le := Nat.le_succ_of_le h.user_le
    node := fun hj => by
      rcases TypeTable.eq_or_find?_of_enter hj with rfl | hj
      · exact ha.node
      · exact h.node hj
    maker := fun hj hn => by
      rcases TypeTable.eq_or_find?_of_enter hj with rfl | hj
      · exact ha.maker_none h hn
      · exact h.maker hj hn
    first := TypeTable.first_insertNew hlt h.bound h.first e
    bound := TypeTable.exists_insertNew h.bound
    firstNamed := TypeTable.first_insertNew hlt h.named h.firstNamed e
    named := TypeTable.exists_insertNew h.named
    last := fun hs => by
      rw [TypeTable.find?_byClass_enter hclass] at hs
      split at hs
      · rename_i he; cases hs
        exact TypeTable.Last.enter_new hlt he
      · rename_i he
        exact (h.last hs).enter hlt he
    ranked := fun hj hn => by
      rw [TypeTable.find?_byClass_enter hclass]
      split
      · exact ⟨_, rfl⟩
      · rename_i hne
        rcases TypeTable.eq_or_find?_of_enter hj with rfl | hj
        · simp [hn] at hne
        · exact h.ranked hj hn
    converter := fun hc => ⟨keep (h.converter hc).1, keep (h.converter hc).2⟩ }

/-! ## The other changes -/

theorem NodeFits.mono {s : Registries} (hc : ∀ {c n}, r.classes.find? c = some n → s.classes.find? c = some n)
    {e : Entry} (h : r.NodeFits e) : s.NodeFits e := by
  unfold NodeFits at h ⊢
  split at h
  · obtain ⟨n, hn, he⟩ := h; exact ⟨n, hc hn, he⟩
  · exact h

theorem Sound.withNode (h : r.Sound) (c : ClassDecl) :
    Sound { r with classes := (ClassCache.node c r.classes).2.2 } where
  classes := h.classes.node c
  keys := h.keys
  user_le := h.user_le
  node hj := (h.node hj).mono ClassCache.find?_node_of_some
  maker := h.maker
  first := h.first
  bound := h.bound
  firstNamed := h.firstNamed
  named := h.named
  last := h.last
  ranked := h.ranked
  converter := h.converter

/-- Opting a class in changes no entry but for its maker, and only the entries of the class. -/
theorem find?_setMaker {t : TypeTable} {n : ClassNode} {make : Script} {id : TypeId} {f : Entry}
    (hf : (t.setMaker n make).entries.find? id = some f) :
    ∃ e, t.entries.find? id = some e ∧ f.ty = e.ty ∧ f.name = e.name ∧ f.node = e.node ∧
      (f.maker = e.maker ∨ f.maker = some make ∧ Descriptor.sameNode e.node (some n) = true) := by
  simp only [TypeTable.setMaker, Table.find?_mapValues, Option.map_eq_some_iff] at hf
  obtain ⟨e, he, rfl⟩ := hf
  refine ⟨e, he, ?_⟩
  split
  · rename_i hs; exact ⟨rfl, rfl, rfl, .inr ⟨rfl, hs⟩⟩
  · exact ⟨rfl, rfl, rfl, .inl rfl⟩

theorem find?_setMaker_of_some {t : TypeTable} (n : ClassNode) (make : Script) {id : TypeId} {e : Entry}
    (he : t.entries.find? id = some e) : ∃ f, (t.setMaker n make).entries.find? id = some f ∧
      f.ty = e.ty ∧ f.name = e.name ∧ f.node = e.node := by
  simp only [TypeTable.setMaker, Table.find?_mapValues, he, Option.map_some, Option.some.injEq, exists_eq_left']
  split <;> exact ⟨rfl, rfl, rfl⟩

section

variable {t : TypeTable} {p : Entry → Prop} (n : ClassNode) (make : Script)
variable (hp : ∀ {e f : Entry}, f.ty = e.ty → f.name = e.name → f.node = e.node → p f → p e)
include hp

theorem first_setMaker {i : TypeId} (h : t.First p i) : (t.setMaker n make).First p i := by
  obtain ⟨⟨e, he, hpe⟩, hmin⟩ := h
  obtain ⟨f, hf, hty, hname, hnode⟩ := find?_setMaker_of_some n make he
  refine ⟨⟨f, hf, hp hty.symm hname.symm hnode.symm hpe⟩, ?_⟩
  intro j g hj hg
  obtain ⟨e', he', hty', hname', hnode', -⟩ := find?_setMaker hj
  exact hmin j e' he' (hp hty' hname' hnode' hg)

theorem last_setMaker {i : TypeId} (h : t.Last p i) : (t.setMaker n make).Last p i := by
  obtain ⟨⟨e, he, hpe⟩, hmax⟩ := h
  obtain ⟨f, hf, hty, hname, hnode⟩ := find?_setMaker_of_some n make he
  refine ⟨⟨f, hf, hp hty.symm hname.symm hnode.symm hpe⟩, ?_⟩
  intro j g hj hg
  obtain ⟨e', he', hty', hname', hnode', -⟩ := find?_setMaker hj
  exact hmax j e' he' (hp hty' hname' hnode' hg)

end

theorem Sound.setMaker (h : r.Sound) (n : ClassNode) (make : Script) :
    Sound { r with types := r.types.setMaker n make } where
  classes := h.classes
  keys := (Table.keys_mapValues _ _).trans h.keys
  user_le := h.user_le
  node hj := by
    obtain ⟨e, he, hty, -, hnode, -⟩ := find?_setMaker hj
    have hfit := h.node he
    unfold NodeFits at hfit ⊢
    rw [hty, hnode]; exact hfit
  maker hj hn := by
    obtain ⟨e, he, -, -, hnode, hm | ⟨-, hs⟩⟩ := find?_setMaker hj
    · rw [hm]; exact h.maker he (hnode ▸ hn)
    · rw [← hnode, hn] at hs; cases hs
  first hb := first_setMaker n make (fun hty _ _ hf => hty.symm.trans hf) (h.first hb)
  bound hj := by
    obtain ⟨e, he, hty, -⟩ := find?_setMaker hj
    rw [hty]; exact h.bound he
  firstNamed hb := first_setMaker n make (fun _ hname _ hf => hname.symm.trans hf) (h.firstNamed hb)
  named hj := by
    obtain ⟨e, he, -, hname, -⟩ := find?_setMaker hj
    rw [hname]; exact h.named he
  last hs := last_setMaker n make (fun _ _ hnode hf => by rw [← hnode]; exact hf) (h.last hs)
  ranked hj hn := by
    obtain ⟨e, he, -, -, hnode, -⟩ := find?_setMaker hj
    exact h.ranked he (hnode ▸ hn)
  converter := h.converter

/-- Converters may be exchanged for others that are kept under the numbers of their types. -/
theorem Sound.withConverters (h : r.Sound) {cs : Table (TypeId × TypeId) Converter}
    (hcs : ∀ {s u c}, cs.find? (s, u) = some c → r.types.Numbers c.source s ∧ r.types.Numbers c.target u) :
    Sound { r with types := { r.types with converters := cs } } where
  classes := h.classes
  keys := h.keys
  user_le := h.user_le
  node := h.node
  maker := h.maker
  first := h.first
  bound := h.bound
  firstNamed := h.firstNamed
  named := h.named
  last := h.last
  ranked := h.ranked
  converter := hcs

theorem Sound.withFactory (h : r.Sound) (f : Table TypeId Script) : Sound { r with factories := f } where
  classes := h.classes
  keys := h.keys
  user_le := h.user_le
  node := h.node
  maker := h.maker
  first := h.first
  bound := h.bound
  firstNamed := h.firstNamed
  named := h.named
  last := h.last
  ranked := h.ranked
  converter := h.converter

/-! ## The start -/

/-- The table of the builtin types without the converters between them. -/
def builtinTypes : TypeTable where
  entries := ⟨TypeTable.numberedBuiltins.map fun p => (p.1, ⟨p.2, p.2.name, none, none⟩)⟩
  byType := ⟨TypeTable.numberedBuiltins.map fun p => (p.2, p.1)⟩
  byName := ⟨TypeTable.numberedBuiltins.map fun p => (p.2.name, p.1)⟩
  byClass := .empty
  converters := .empty
  next := TypeId.firstUser

/-- Putting builtin types in changes the entries and the indices of types and names, each on its own. -/
theorem foldl_insertBuiltin (l : List (TypeId × Ty)) (t : TypeTable) :
    l.foldl (fun t p => t.insertBuiltin p.1 p.2) t =
      { t with
        entries := (l.map fun p => (p.1, ⟨p.2, p.2.name, none, none⟩)).foldl (fun m q => m.insert q.1 q.2) t.entries
        byType := (l.map fun p => (p.2, p.1)).foldl (fun m q => m.insert q.1 q.2) t.byType
        byName := (l.map fun p => (p.2.name, p.1)).foldl (fun m q => m.insert q.1 q.2) t.byName } := by
  induction l generalizing t with
  | nil => rfl
  | cons p l ih => rw [List.foldl_cons, ih]; rfl

theorem nodup_numbers : (TypeTable.numberedBuiltins.map Prod.fst).Nodup := by decide

theorem nodup_types : (TypeTable.numberedBuiltins.map Prod.snd).Nodup := by decide

theorem nodup_names : (TypeTable.numberedBuiltins.map fun p => p.2.name).Nodup := by decide

theorem foldl_builtinTypes :
    TypeTable.numberedBuiltins.foldl (fun t p => t.insertBuiltin p.1 p.2) .empty = builtinTypes := by
  rw [foldl_insertBuiltin, TypeTable.empty, Table.foldl_insert_empty, Table.foldl_insert_empty,
    Table.foldl_insert_empty]
  · rfl
  · simpa [Function.comp_def] using nodup_names
  · simpa [Function.comp_def] using nodup_types
  · simpa [Function.comp_def] using nodup_numbers

theorem builtin_entry {id : TypeId} {e : Entry} (h : builtinTypes.entries.find? id = some e) :
    ∃ p ∈ TypeTable.numberedBuiltins, id = p.1 ∧ e = ⟨p.2, p.2.name, none, none⟩ := by
  obtain ⟨p, hp, he⟩ := List.mem_map.mp (Table.mem_pairs_of_find? h)
  cases he; exact ⟨p, hp, rfl, rfl⟩

theorem builtin_first {p : TypeId × Ty} (hp : p ∈ TypeTable.numberedBuiltins) {q : Entry → Prop}
    (hq : q ⟨p.2, p.2.name, none, none⟩)
    (hu : ∀ p' ∈ TypeTable.numberedBuiltins, q ⟨p'.2, p'.2.name, none, none⟩ → p' = p) :
    builtinTypes.First q p.1 := by
  refine ⟨⟨_, Table.find?_map_of_mem nodup_numbers hp, hq⟩, ?_⟩
  intro j f hj hqf
  obtain ⟨a, ha, rfl, rfl⟩ := builtin_entry hj
  exact Nat.le_of_eq (congrArg (fun a => a.1.val) (hu a ha hqf).symm)

/-- The number of a builtin type. -/
def builtinNumber (t : Ty) : TypeId := (builtinTypes.byType.find? t).getD TypeId.wild

/-- Converters between builtin types, each under the numbers of its types. -/
def listConverters (l : List (Ty × Ty)) : List ((TypeId × TypeId) × Converter) :=
  l.map fun p => ((builtinNumber p.1, builtinNumber p.2), TypeTable.builtinConverter p.1 p.2)

/-- The types of every supported pair have numbers. -/
theorem find?_builtinNumber : ∀ p ∈ Conversion.pairs,
    builtinTypes.byType.find? p.1 = some (builtinNumber p.1) ∧
      builtinTypes.byType.find? p.2 = some (builtinNumber p.2) := by decide

theorem mem_listConverters {l : List (Ty × Ty)} {s t : Ty} (h : (s, t) ∈ l) :
    ((builtinNumber s, builtinNumber t), TypeTable.builtinConverter s t) ∈ listConverters l :=
  List.mem_map.mpr ⟨(s, t), h, rfl⟩

theorem nodup_listConverters : ((listConverters Conversion.pairs).map Prod.fst).Nodup := by decide

/-- Putting converters in changes the converters only. -/
theorem foldl_insertConverter {l : List (Ty × Ty)} {t : TypeTable}
    (hl : ∀ p ∈ l, t.byType.find? p.1 = some (builtinNumber p.1) ∧ t.byType.find? p.2 = some (builtinNumber p.2)) :
    l.foldl (fun t p => t.insertConverter (TypeTable.builtinConverter p.1 p.2)) t =
      { t with converters := (listConverters l).foldl (fun m q => m.insert q.1 q.2) t.converters } := by
  induction l generalizing t with
  | nil => rfl
  | cons p l ih =>
    obtain ⟨hsource, htarget⟩ := hl p (List.mem_cons_self ..)
    have hput : t.insertConverter (TypeTable.builtinConverter p.1 p.2) =
        { t with converters := (listConverters [p]).foldl (fun m q => m.insert q.1 q.2) t.converters } := by
      simp only [TypeTable.insertConverter, TypeTable.builtinConverter, hsource, htarget]
      rfl
    rw [List.foldl_cons, hput]
    exact ih fun q hq => hl q (List.mem_cons_of_mem p hq)

end Registries

/-- The fresh world with its tables as lists. -/
def World.start : World :=
  ⟨⟨{ Registries.builtinTypes with converters := ⟨Registries.listConverters Conversion.pairs⟩ }, .empty, .empty⟩,
    .empty, 0, []⟩

theorem World.fresh_eq : World.fresh = World.start := by
  have hnone : Registries.builtinTypes.converters = .empty := rfl
  have htable : TypeTable.builtin =
      { Registries.builtinTypes with converters := ⟨Registries.listConverters Conversion.pairs⟩ } := by
    rw [TypeTable.builtin, Registries.foldl_builtinTypes, Registries.foldl_insertConverter
      Registries.find?_builtinNumber, hnone, Table.foldl_insert_empty Registries.nodup_listConverters]
  rw [fresh, start, htable]

namespace Registries

/-- At the start there are the builtin types and the converters between them. -/
theorem fresh_types : ∃ cs : Table (TypeId × TypeId) Converter,
    World.fresh.registries = ⟨{ builtinTypes with converters := cs }, .empty, .empty⟩ ∧
      ∀ {k c}, cs.find? k = some c → ∃ a b, c = TypeTable.builtinConverter a b ∧
        builtinTypes.byType.find? a = some k.1 ∧ builtinTypes.byType.find? b = some k.2 := by
  refine ⟨⟨listConverters Conversion.pairs⟩, by rw [World.fresh_eq]; rfl, fun {k c} hc => ?_⟩
  obtain ⟨p, hp, heq⟩ := List.mem_map.mp (Table.mem_pairs_of_find? hc)
  obtain ⟨hsource, htarget⟩ := find?_builtinNumber p hp
  cases heq
  exact ⟨p.1, p.2, rfl, hsource, htarget⟩

/-- The registries with the builtin types are sound, before the converters are put in. -/
theorem sound_builtinTypes : Sound ⟨builtinTypes, .empty, .empty⟩ := by
  have hnode : ∀ p ∈ TypeTable.numberedBuiltins, p.2.cls? = none := by decide
  refine ⟨ClassCache.sound_empty, by decide, Nat.le_refl _, fun hj => ?_, fun hj _ => ?_, fun hb => ?_, fun hj => ?_,
    fun hb => ?_, fun hj => ?_, fun hs => ?_, fun hj hn => ?_, fun hc => ?_⟩
  · obtain ⟨p, hp, -, rfl⟩ := builtin_entry hj
    simp [NodeFits, hnode p hp]
  · obtain ⟨p, hp, -, rfl⟩ := builtin_entry hj; rfl
  · obtain ⟨p, hp, he⟩ := List.mem_map.mp (Table.mem_pairs_of_find? hb)
    cases he
    exact builtin_first hp rfl fun p' hp' he => List.inj_on_of_nodup_map nodup_types hp' hp he
  · obtain ⟨p, hp, -, rfl⟩ := builtin_entry hj
    exact ⟨_, Table.find?_map_of_mem nodup_types hp⟩
  · obtain ⟨p, hp, he⟩ := List.mem_map.mp (Table.mem_pairs_of_find? hb)
    cases he
    exact builtin_first hp rfl fun p' hp' he => List.inj_on_of_nodup_map nodup_names hp' hp he
  · obtain ⟨p, hp, -, rfl⟩ := builtin_entry hj
    exact ⟨_, Table.find?_map_of_mem nodup_names hp⟩
  · cases hs
  · obtain ⟨p, hp, -, rfl⟩ := builtin_entry hj
    cases hn
  · cases hc

theorem sound_fresh : Sound World.fresh.registries := by
  obtain ⟨cs, hfresh, hconv⟩ := fresh_types
  have hany : builtinTypes.byType.find? .any = none := by decide
  have hne : ∀ {ty id}, builtinTypes.byType.find? ty = some id → ty ≠ .any := fun h e => by
    rw [e, hany] at h; cases h
  rw [hfresh]
  refine Sound.withConverters sound_builtinTypes ?_
  intro s u c hc
  obtain ⟨a, b, rfl, hs, hu⟩ := hconv hc
  exact ⟨.inr ⟨hne hs, hs⟩, .inr ⟨hne hu, hu⟩⟩

end Registries

end Multimethod
