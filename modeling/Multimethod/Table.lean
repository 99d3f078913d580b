/-
  Multimethod.Table — a finite map kept as a list of pairs, oldest key first.
-/

/-!
A `Table` answers `find?` and changes by `insert` (the newest value of a key counts) or `insertNew`
(the first value of a key counts). A key keeps the place it got when it was first inserted, so `keys`
lists them in the order in which they arrived. The lemmas say what each change does to `find?`; later
modules use these and not the list.
-/

namespace Multimethod

/-- A finite map; each key occurs once when the table was built by the operations below. -/
structure Table (κ ν : Type) where
  pairs : List (κ × ν)

namespace Table

variable {κ ν : Type}

/-- The table without keys. -/
def empty : Table κ ν := ⟨[]⟩

/-- Number of keys. -/
def size (t : Table κ ν) : Nat := t.pairs.length

/-- The keys, oldest first. -/
def keys (t : Table κ ν) : List κ := t.pairs.map Prod.fst

/-- The same keys with each value changed by `f`. -/
def mapValues (f : ν → ν) (t : Table κ ν) : Table κ ν := ⟨t.pairs.map fun p => (p.1, f p.2)⟩

@[simp] theorem keys_mapValues (f : ν → ν) (t : Table κ ν) : (t.mapValues f).keys = t.keys := by
  simp [keys, mapValues]

theorem size_eq_length_keys (t : Table κ ν) : t.size = t.keys.length := by simp [size, keys]

variable [DecidableEq κ]

/-- The value of a key. -/
def find? (t : Table κ ν) (k : κ) : Option ν := (t.pairs.find? fun p => p.1 = k).map Prod.snd

/-- Whether a key has a value. -/
def contains (t : Table κ ν) (k : κ) : Bool := (t.find? k).isSome

/-- Puts `v` for `k` into a list of pairs: in the place of the old value, or at the end. -/
def put (k : κ) (v : ν) : List (κ × ν) → List (κ × ν)
  | [] => [(k, v)]
  | p :: rest => if p.1 = k then (k, v) :: rest else p :: put k v rest

/-- Gives `k` the value `v`, whatever it had before. -/
def insert (t : Table κ ν) (k : κ) (v : ν) : Table κ ν := ⟨put k v t.pairs⟩

/-- Gives `k` the value `v` unless it has one. -/
def insertNew (t : Table κ ν) (k : κ) (v : ν) : Table κ ν := if t.contains k then t else t.insert k v

@[simp] theorem find?_empty (k : κ) : (empty : Table κ ν).find? k = none := rfl

theorem find?_of_isEmpty {t : Table κ ν} (h : t.pairs.isEmpty = true) (k : κ) : t.find? k = none := by
  rw [find?, List.isEmpty_iff.mp h]
  rfl

@[simp] theorem put_nil (k : κ) (v : ν) : put k v [] = [(k, v)] := rfl

@[simp] theorem put_cons (k : κ) (v : ν) (p : κ × ν) (rest : List (κ × ν)) :
    put k v (p :: rest) = if p.1 = k then (k, v) :: rest else p :: put k v rest := rfl

theorem find?_put (k j : κ) (v : ν) (l : List (κ × ν)) :
    ((put k v l).find? fun p => p.1 = j).map Prod.snd =
      if k = j then some v else (l.find? fun p => p.1 = j).map Prod.snd := by
  induction l with
  | nil => by_cases h : k = j <;> simp [h]
  | cons p rest ih =>
    by_cases hp : p.1 = k
    · by_cases h : k = j <;> simp [hp, h]
    · by_cases h : k = j
      · subst h; simpa [hp] using ih
      · by_cases hj : p.1 = j
        · have hk : ¬ j = k := fun e => h e.symm
          simp [h, hj, hk]
        · simpa [hp, h, hj] using ih

@[simp] theorem find?_insert (t : Table κ ν) (k j : κ) (v : ν) :
    (t.insert k v).find? j = if k = j then some v else t.find? j := find?_put k j v t.pairs

@[simp] theorem find?_insertNew (t : Table κ ν) (k j : κ) (v : ν) :
    (t.insertNew k v).find? j = if k = j then some ((t.find? k).getD v) else t.find? j := by
  unfold insertNew contains
  cases h : t.find? k with
  | none => simp
  | some u =>
    by_cases e : k = j
    · subst e; simp [h]
    · simp [e]

@[simp] theorem find?_mapValues (f : ν → ν) (t : Table κ ν) (k : κ) :
    (t.mapValues f).find? k = (t.find? k).map f := by
  unfold find? mapValues
  induction t.pairs with
  | nil => rfl
  | cons p rest ih => by_cases h : p.1 = k <;> simp_all

theorem keys_put (k : κ) (v : ν) (l : List (κ × ν)) :
    (put k v l).map Prod.fst = if k ∈ l.map Prod.fst then l.map Prod.fst else l.map Prod.fst ++ [k] := by
  induction l with
  | nil => simp
  | cons p rest ih =>
    by_cases hp : p.1 = k
    · simp [hp]
    · by_cases hk : k ∈ rest.map Prod.fst
      · simp_all
      · simp_all [eq_comm]

theorem keys_insert (t : Table κ ν) (k : κ) (v : ν) :
    (t.insert k v).keys = if k ∈ t.keys then t.keys else t.keys ++ [k] := keys_put k v t.pairs

theorem mem_keys_iff (t : Table κ ν) (k : κ) : k ∈ t.keys ↔ t.contains k = true := by
  simp [keys, contains, find?]

theorem contains_iff (t : Table κ ν) (k : κ) : t.contains k = true ↔ ∃ v, t.find? k = some v :=
  Option.isSome_iff_exists

theorem not_mem_keys {t : Table κ ν} {k : κ} (h : t.find? k = none) : k ∉ t.keys := by
  simp [mem_keys_iff, contains, h]

theorem keys_insert_new {t : Table κ ν} {k : κ} (v : ν) (h : t.find? k = none) :
    (t.insert k v).keys = t.keys ++ [k] := by
  rw [keys_insert, if_neg (not_mem_keys h)]

theorem put_new {k : κ} (v : ν) {l : List (κ × ν)} (h : k ∉ l.map Prod.fst) : put k v l = l ++ [(k, v)] := by
  induction l with
  | nil => rfl
  | cons p rest ih =>
    obtain ⟨hp, hrest⟩ := not_or.mp fun hk => h (List.mem_cons.mpr hk)
    rw [put_cons, if_neg (Ne.symm hp), ih hrest]; rfl

theorem insert_new {t : Table κ ν} {k : κ} (v : ν) (h : k ∉ t.keys) : t.insert k v = ⟨t.pairs ++ [(k, v)]⟩ :=
  congrArg Table.mk (put_new v h)

/-- Pairs with new keys are put in one after the other. -/
theorem foldl_insert {l : List (κ × ν)} {t : Table κ ν} (hnew : (t.keys ++ l.map Prod.fst).Nodup) :
    l.foldl (fun t p => t.insert p.1 p.2) t = ⟨t.pairs ++ l⟩ := by
  induction l generalizing t with
  | nil => simp
  | cons p l ih =>
    have hp : p.1 ∉ t.keys := fun h => (List.nodup_append.mp hnew).2.2 _ h _ (List.mem_cons_self ..) rfl
    have hrest : ((t.insert p.1 p.2).keys ++ l.map Prod.fst).Nodup := by
      rw [keys_insert, if_neg hp]
      simpa using hnew
    rw [List.foldl_cons, ih hrest, insert_new _ hp]
    simp

theorem foldl_insert_empty {l : List (κ × ν)} (hnew : (l.map Prod.fst).Nodup) :
    l.foldl (fun t p => t.insert p.1 p.2) empty = ⟨l⟩ := foldl_insert hnew

theorem size_insert_new {t : Table κ ν} {k : κ} (v : ν) (h : t.find? k = none) :
    (t.insert k v).size = t.size + 1 := by
  simp [size_eq_length_keys, keys_insert_new v h]

theorem find?_of_mem {t : Table κ ν} (hnew : t.keys.Nodup) {k : κ} {v : ν} (h : (k, v) ∈ t.pairs) :
    t.find? k = some v := by
  obtain ⟨l⟩ := t
  induction l with
  | nil => cases h
  | cons p rest ih =>
    obtain ⟨hp, hrest⟩ := List.nodup_cons.mp hnew
    rcases List.mem_cons.mp h with rfl | h
    · simp [find?]
    · have hne : p.1 ≠ k := fun hk => hp (List.mem_map.mpr ⟨(k, v), h, hk.symm⟩)
      have hfind := ih hrest h
      simpa [find?, hne] using hfind

theorem find?_map_of_mem {α : Type} {l : List α} {f : α → κ} {g : α → ν} (hnew : (l.map f).Nodup) {a : α}
    (ha : a ∈ l) : (⟨l.map fun a => (f a, g a)⟩ : Table κ ν).find? (f a) = some (g a) :=
  find?_of_mem (by simpa [keys, Function.comp_def] using hnew) (List.mem_map_of_mem ha)

theorem mem_pairs_of_find? {t : Table κ ν} {k : κ} {v : ν} (h : t.find? k = some v) : (k, v) ∈ t.pairs := by
  obtain ⟨p, hp, rfl⟩ := Option.map_eq_some_iff.mp h
  have hk : p.1 = k := by simpa using List.find?_some hp
  exact hk ▸ List.mem_of_find?_eq_some hp

end Table

end Multimethod
