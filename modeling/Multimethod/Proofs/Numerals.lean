/-
  Multimethod.Proofs.Numerals — integers of fixed width, and their decimal texts.

  A bit vector of a kind stands for a number between the kind's least and greatest value
  (`IntKind.toInt_bounds`), and every number in between has one (`toInt_wrap`). Any other
  number is wrapped to the one value of its residue (`eq_wrap_iff`), so wrapping to a width
  and then to one that is no greater is wrapping to the latter (`wrap_toInt_wrap`).

  The decimal text of an integer is read as that integer, with a sign only where signs are
  read (`Decimal.readInt_intChars`), and white space around it is cut off (`Text.trim_intChars`).
  So a kind reads the text of a number as its own value for that number, if it has one
  (`IntKind.read_intChars_iff`).
-/
import Mathlib.Data.Int.ModEq
import Multimethod.Number.Integer
import Multimethod.Text.Blank

namespace Multimethod

namespace IntKind

variable (k : IntKind)

/-! ## Residues -/

theorem wrap_toInt (x : BitVec k.width) : k.wrap (k.toInt x) = x := by
  unfold wrap toInt
  split
  · exact BitVec.ofInt_toInt
  · exact BitVec.eq_of_toNat_eq (by simp)

theorem toInt_wrap_modEq (i : Int) : k.toInt (k.wrap i) ≡ i [ZMOD 2 ^ k.width] := by
  have hpow : ((2 ^ k.width : Nat) : Int) = 2 ^ k.width := Int.natCast_pow 2 k.width
  have hpos : ((2 ^ k.width : Nat) : Int) ≠ 0 := Int.natCast_ne_zero.mpr (Nat.two_pow_pos _).ne'
  unfold wrap toInt Int.ModEq
  split
  · rw [BitVec.toInt_ofInt, ← hpow, Int.bmod_emod]
  · rw [BitVec.toNat_ofInt, ← hpow, Int.toNat_of_nonneg (Int.emod_nonneg _ hpos), Int.emod_emod]

theorem wrap_congr {i j : Int} (h : i ≡ j [ZMOD 2 ^ k.width]) : k.wrap i = k.wrap j := by
  refine BitVec.eq_of_toNat_eq ?_
  unfold wrap
  rw [BitVec.toNat_ofInt, BitVec.toNat_ofInt, Int.natCast_pow]
  exact congrArg Int.toNat h

/-- A number is wrapped to the one value that is congruent to it. -/
theorem eq_wrap_iff {x : BitVec k.width} {i : Int} : x = k.wrap i ↔ k.toInt x ≡ i [ZMOD 2 ^ k.width] := by
  constructor
  · rintro rfl
    exact k.toInt_wrap_modEq i
  · intro h
    rw [← k.wrap_congr h, k.wrap_toInt]

/-- What a wider kind cuts off or adds, a narrower one does not see. -/
theorem wrap_toInt_wrap {l m : IntKind} (h : m.width ≤ l.width) (i : Int) :
    m.wrap (l.toInt (l.wrap i)) = m.wrap i := by
  have hdvd : (2 : Int) ^ m.width ∣ 2 ^ l.width := pow_dvd_pow 2 h
  exact m.wrap_congr ((l.toInt_wrap_modEq i).of_dvd hdvd)

/-- A narrower kind in between does cut off: of `2 ^ 32`, 32 bits keep nothing. -/
example : int64.wrap (int32.toInt (int32.wrap 4294967296)) ≠ int64.wrap 4294967296 := by decide

/-! ## Ranges -/

theorem toInt_bounds (x : BitVec k.width) : k.lowest ≤ k.toInt x ∧ k.toInt x ≤ k.highest := by
  cases k with
  | int32 =>
    have hlow := BitVec.le_toInt (w := 32) x
    have hhigh := BitVec.toInt_lt (w := 32) (x := x)
    show -2147483648 ≤ BitVec.toInt (n := 32) x ∧ BitVec.toInt (n := 32) x ≤ 2147483647
    omega
  | int64 =>
    have hlow := BitVec.le_toInt (w := 64) x
    have hhigh := BitVec.toInt_lt (w := 64) (x := x)
    show -9223372036854775808 ≤ BitVec.toInt (n := 64) x ∧ BitVec.toInt (n := 64) x ≤ 9223372036854775807
    omega
  | uint32 =>
    have h := BitVec.isLt (w := 32) x
    show 0 ≤ (BitVec.toNat (w := 32) x : Int) ∧ (BitVec.toNat (w := 32) x : Int) ≤ 4294967295
    omega
  | uint64 =>
    have h := BitVec.isLt (w := 64) x
    show 0 ≤ (BitVec.toNat (w := 64) x : Int) ∧ (BitVec.toNat (w := 64) x : Int) ≤ 18446744073709551615
    omega

/-- A number in range is the number of the value it is wrapped to. -/
theorem toInt_wrap {i : Int} (hlow : k.lowest ≤ i) (hhigh : i ≤ k.highest) : k.toInt (k.wrap i) = i := by
  have hmod := k.toInt_wrap_modEq i
  obtain ⟨hlow', hhigh'⟩ := k.toInt_bounds (k.wrap i)
  -- two numbers of one residue in a range of that length
  generalize k.toInt (k.wrap i) = j at *
  cases k <;> simp only [lowest, highest, width, Int.ModEq] at * <;> omega

end IntKind

/-! ## Decimal texts -/

namespace Decimal

theorem exists_digit_of_mem_natChars {n : Nat} {c : Char} (h : c ∈ natChars n) : ∃ d, digitOf? c = some d := by
  obtain ⟨d, hd, rfl⟩ := List.mem_map.mp h
  exact ⟨d, digitOf?_digitChar (digits_lt_ten n d hd)⟩

theorem natChars_ne_nil (n : Nat) : natChars n ≠ [] := by
  simp [natChars, digits_ne_nil]

theorem readInt_natChars (signed : Bool) (n : Nat) : readInt signed (natChars n) = some (n : Int) := by
  have hread : (readNat (natChars n)).map Int.ofNat = some (n : Int) := by rw [readNat_digits]; rfl
  have hdigit : ∀ c ∈ natChars n, ∃ d, digitOf? c = some d := fun c => exists_digit_of_mem_natChars
  -- a text of digits starts with no sign
  unfold readInt
  split
  · rename_i rest hplus
    obtain ⟨d, hd⟩ := hdigit '+' (hplus ▸ List.mem_cons_self ..)
    cases hd
  · rename_i rest hminus
    obtain ⟨d, hd⟩ := hdigit '-' (hminus ▸ List.mem_cons_self ..)
    cases hd
  · exact hread

/-- The text of an integer is read as the integer; a negative one only where signs are read. -/
theorem readInt_intChars (signed : Bool) (i : Int) :
    readInt signed (intChars i) = if signed = true ∨ 0 ≤ i then some i else none := by
  unfold intChars
  split
  · rename_i hneg
    have hread : readInt signed ('-' :: natChars i.natAbs) =
        if signed = true then (readNat (natChars i.natAbs)).map fun n => -(n : Int) else none := rfl
    have hi : -(i.natAbs : Int) = i := by omega
    have hvalue : (readNat (natChars i.natAbs)).map (fun n => -(n : Int)) = some i := by
      rw [readNat_digits]
      exact congrArg some hi
    rw [hread, hvalue]
    simp [Int.not_le.mpr hneg]
  · rename_i hnonneg
    have hi : (i.natAbs : Int) = i := by omega
    rw [readInt_natChars, hi, if_pos (.inr (Int.not_lt.mp hnonneg))]

theorem intChars_ne_nil (i : Int) : intChars i ≠ [] := by
  unfold intChars
  split
  · exact List.cons_ne_nil _ _
  · exact natChars_ne_nil _

end Decimal

namespace Text

/-- A digit is no white space. -/
theorem isBlank_of_digit {c : Char} {d : Nat} (h : Decimal.digitOf? c = some d) : isBlank c = false := by
  obtain ⟨hrange, -⟩ := Option.ite_none_right_eq_some.mp h
  simp only [isBlank, blankRanges, List.any_cons, List.any_nil, Bool.or_eq_false_iff, Bool.and_eq_false_iff,
    decide_eq_false_iff_not, and_true]
  omega

theorem isBlank_of_mem_intChars {i : Int} {c : Char} (h : c ∈ Decimal.intChars i) : isBlank c = false := by
  have hnat : ∀ n, c ∈ Decimal.natChars n → isBlank c = false := fun n hc => by
    obtain ⟨d, hd⟩ := Decimal.exists_digit_of_mem_natChars hc
    exact isBlank_of_digit hd
  unfold Decimal.intChars at h
  split at h
  · rcases List.mem_cons.mp h with rfl | h
    · decide
    · exact hnat _ h
  · exact hnat _ h

theorem trim_intChars {before after : List Char} (hb : ∀ c ∈ before, isBlank c = true)
    (ha : ∀ c ∈ after, isBlank c = true) (i : Int) :
    trim (before ++ Decimal.intChars i ++ after) = Decimal.intChars i :=
  trim_surround hb ha (Decimal.intChars_ne_nil i) (isBlank_of_mem_intChars (List.head_mem _))
    (isBlank_of_mem_intChars (List.getLast_mem _))

end Text

namespace IntKind

variable (k : IntKind)

theorem read_intChars (i : Int) :
    k.read (Decimal.intChars i) = if k.lowest ≤ i ∧ i ≤ k.highest then some (k.wrap i) else none := by
  unfold read
  rw [Decimal.readInt_intChars]
  by_cases h : k.signed = true ∨ 0 ≤ i
  · rw [if_pos h]
  · -- a negative number is in range of no kind without signs
    have hout : ¬ (k.lowest ≤ i ∧ i ≤ k.highest) := fun ⟨hlow, _⟩ => by
      cases k with
      | int32 | int64 => exact h (.inl rfl)
      | uint32 | uint64 => exact h (.inr hlow)
    rw [if_neg h, if_neg hout]

/-- The text of a number is read as the kind's value for the number, if it has one. -/
theorem read_intChars_iff {i : Int} {x : BitVec k.width} :
    k.read (Decimal.intChars i) = some x ↔ k.toInt x = i := by
  rw [read_intChars]
  constructor
  · intro h
    obtain ⟨hrange, hx⟩ := Option.ite_none_right_eq_some.mp h
    cases hx
    exact k.toInt_wrap hrange.1 hrange.2
  · rintro rfl
    rw [if_pos (k.toInt_bounds x), k.wrap_toInt]

theorem read_intChars_none_iff {i : Int} :
    k.read (Decimal.intChars i) = none ↔ i < k.lowest ∨ k.highest < i := by
  rw [read_intChars]
  split
  · rename_i h
    exact ⟨fun hx => (by cases hx), fun hx => (by omega)⟩
  · rename_i h
    exact ⟨fun _ => (by omega), fun _ => rfl⟩

end IntKind

end Multimethod
