/-
  Multimethod.Text.Blank — white space, and cutting it off both ends of a text.
-/

/-!
White space is the standard's property of that name: twenty-five characters. `trim` drops it at both ends;
`trim_surround` says that white space put around a text that neither starts nor ends with any is dropped
again.
-/

namespace Multimethod.Text

/-- The ranges of code points that are white space. -/
def blankRanges : List (Nat × Nat) :=
  [(0x9, 0xd), (0x20, 0x20), (0x85, 0x85), (0xa0, 0xa0), (0x1680, 0x1680), (0x2000, 0x200a),
   (0x2028, 0x2029), (0x202f, 0x202f), (0x205f, 0x205f), (0x3000, 0x3000)]

/-- Whether a character is white space. -/
def isBlank (c : Char) : Bool := blankRanges.any fun r => r.1 ≤ c.toNat && c.toNat ≤ r.2

/-- The text without the white space at its ends. -/
def trim (cs : List Char) : List Char :=
  ((cs.dropWhile isBlank).reverse.dropWhile isBlank).reverse

theorem dropWhile_append_of_all {α : Type} {p : α → Bool} {xs : List α} (h : ∀ x ∈ xs, p x = true)
    (ys : List α) : (xs ++ ys).dropWhile p = ys.dropWhile p := by
  induction xs with
  | nil => rfl
  | cons x rest ih =>
    have hx := h x (by simp)
    have := ih fun y hy => h y (by simp [hy])
    simp [hx, this]

theorem dropWhile_of_head {α : Type} {p : α → Bool} {x : α} {xs : List α} (h : p x = false) :
    (x :: xs).dropWhile p = x :: xs := by simp [h]

theorem trim_surround {before after cs : List Char} (hb : ∀ c ∈ before, isBlank c = true)
    (ha : ∀ c ∈ after, isBlank c = true) (hne : cs ≠ []) (hh : isBlank (cs.head hne) = false)
    (hl : isBlank (cs.getLast hne) = false) : trim (before ++ cs ++ after) = cs := by
  unfold trim
  have hfront : (cs ++ after).dropWhile isBlank = cs ++ after := by
    cases cs with
    | nil => exact absurd rfl hne
    | cons c rest => exact dropWhile_of_head hh
  have hback : cs.reverse.dropWhile isBlank = cs.reverse := by
    have hr : cs.reverse ≠ [] := by simpa using hne
    rw [← List.cons_head_tail hr]
    exact dropWhile_of_head (by simpa using hl)
  rw [List.append_assoc, dropWhile_append_of_all hb, hfront, List.reverse_append,
    dropWhile_append_of_all (fun c hc => ha c (List.mem_reverse.mp hc)), hback, List.reverse_reverse]

end Multimethod.Text
