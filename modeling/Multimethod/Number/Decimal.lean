/-
  Multimethod.Number.Decimal — decimal digits, and the numerals that are read from text.
-/

/-!
Naturals and integers are written with the digits 0 to 9, the most significant first and no leading
zero. `readNat` and `readInt` take whole texts only. `Numeral.read` takes the longer form with a point
and an exponent; its value is `mantissa * 10 ^ exponent`, exactly. `readNat_digits` says that reading
undoes writing.
-/

namespace Multimethod.Decimal

/-- The decimal digits of `n`, most significant first. -/
def digits (n : Nat) : List Nat :=
  if n < 10 then [n] else digits (n / 10) ++ [n % 10]

/-- The number that a list of digits stands for. -/
def ofDigits (ds : List Nat) : Nat := ds.foldl (fun acc d => 10 * acc + d) 0

/-- The character of a digit. -/
def digitChar (d : Nat) : Char := Char.ofNat (48 + d)

/-- The digit that a character stands for. -/
def digitOf? (c : Char) : Option Nat :=
  if 48 ≤ c.toNat ∧ c.toNat ≤ 57 then some (c.toNat - 48) else none

/-- The characters of `n` in decimal. -/
def natChars (n : Nat) : List Char := (digits n).map digitChar

/-- The characters of `i` in decimal, with a sign only when it is negative. -/
def intChars (i : Int) : List Char :=
  if i < 0 then '-' :: natChars i.natAbs else natChars i.natAbs

/-- `n` in decimal. -/
def writeNat (n : Nat) : String := String.ofList (natChars n)

/-- `i` in decimal. -/
def writeInt (i : Int) : String := String.ofList (intChars i)

/-- Reads a text of digits, at least one. -/
def readNat (cs : List Char) : Option Nat :=
  if cs.isEmpty then none else (cs.mapM digitOf?).map ofDigits

/-- Reads digits after an optional sign; a minus sign is taken only when `signed`. -/
def readInt (signed : Bool) : List Char → Option Int
  | '+' :: rest => (readNat rest).map Int.ofNat
  | '-' :: rest => if signed then (readNat rest).map fun n => -(n : Int) else none
  | cs => (readNat cs).map Int.ofNat

/-! ## Reading undoes writing -/

theorem ofDigits_append_one (ds : List Nat) (d : Nat) : ofDigits (ds ++ [d]) = 10 * ofDigits ds + d := by
  simp [ofDigits]

theorem digits_lt_ten (n : Nat) : ∀ d ∈ digits n, d < 10 := by
  fun_induction digits n with
  | case1 n h => simpa using h
  | case2 n h ih =>
    intro d hd
    rcases List.mem_append.mp hd with hd | hd
    · exact ih d hd
    · simp at hd; omega

theorem ofDigits_digits (n : Nat) : ofDigits (digits n) = n := by
  fun_induction digits n with
  | case1 n h => simp [ofDigits]
  | case2 n h ih => rw [ofDigits_append_one, ih]; omega

theorem digits_ne_nil (n : Nat) : digits n ≠ [] := by
  unfold digits; split <;> simp

theorem digitOf?_digitChar {d : Nat} (h : d < 10) : digitOf? (digitChar d) = some d := by
  have : d = 0 ∨ d = 1 ∨ d = 2 ∨ d = 3 ∨ d = 4 ∨ d = 5 ∨ d = 6 ∨ d = 7 ∨ d = 8 ∨ d = 9 := by omega
  rcases this with rfl | rfl | rfl | rfl | rfl | rfl | rfl | rfl | rfl | rfl <;> decide

theorem mapM_digitOf? (ds : List Nat) (h : ∀ d ∈ ds, d < 10) : (ds.map digitChar).mapM digitOf? = some ds := by
  induction ds with
  | nil => rfl
  | cons d rest ih =>
    have hd := digitOf?_digitChar (h d (by simp))
    have hr := ih fun e he => h e (by simp [he])
    simp [List.mapM_cons, hd, hr]

theorem readNat_digits (n : Nat) : readNat (natChars n) = some n := by
  have hne : (natChars n).isEmpty = false := by
    simp [natChars, digits_ne_nil]
  unfold readNat
  rw [hne, natChars, mapM_digitOf? _ (digits_lt_ten n)]
  simp [ofDigits_digits]

/-! ## Numerals with a point and an exponent -/

/-- The value `mantissa * 10 ^ exponent`. -/
structure Numeral where
  mantissa : Nat
  exponent : Int
  deriving DecidableEq, Repr

namespace Numeral

/-- The digits at the head of a text. -/
def leadingDigits : List Char → List Nat × List Char
  | [] => ([], [])
  | c :: rest =>
    match digitOf? c with
    | some d => ((d :: (leadingDigits rest).1), (leadingDigits rest).2)
    | none => ([], c :: rest)

/-- An exponent no longer grows once it has reached `65536`. -/
def growExponent (acc d : Nat) : Nat := if acc < 65536 then 10 * acc + d else acc

/-- Reads the digits of an exponent up to the end of the text, at least one. -/
def readExponentDigits (cs : List Char) : Option Nat :=
  match leadingDigits cs with
  | ([], _) => none
  | (ds, []) => some (ds.foldl growExponent 0)
  | (_, _ :: _) => none

/-- Reads what may stand after the digits of a numeral: nothing, or an exponent. -/
def readExponent : List Char → Option Int
  | [] => some 0
  | c :: rest =>
    if c = 'e' ∨ c = 'E' then
      match rest with
      | '+' :: ds => (readExponentDigits ds).map Int.ofNat
      | '-' :: ds => (readExponentDigits ds).map fun n => -(n : Int)
      | ds => (readExponentDigits ds).map Int.ofNat
    else none

/-- Reads digits, at least one, with at most one point before, between or after them, and an optional
exponent. -/
def read (cs : List Char) : Option Numeral :=
  let (whole, afterWhole) := leadingDigits cs
  let (fraction, rest) := match afterWhole with
    | '.' :: more => leadingDigits more
    | more => ([], more)
  if whole.isEmpty && fraction.isEmpty then none
  else (readExponent rest).map fun e => ⟨ofDigits (whole ++ fraction), e - fraction.length⟩

end Numeral

end Multimethod.Decimal
