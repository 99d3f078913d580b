/-
  Multimethod.Number.Integer — the four fixed-width integer types.
-/
import Multimethod.Number.Decimal

/-!
An integer value is a bit vector of its kind's width; `toInt` is the number it stands for. `wrap` takes
the number with the same residue modulo the width's power of two, `clamp` the nearest number in range.
-/

namespace Multimethod

/-- The integer types: signed or unsigned, of 32 or 64 bits. -/
inductive IntKind where
  | int32 | uint32 | int64 | uint64
  deriving DecidableEq, Repr

namespace IntKind

/-- Number of bits. -/
def width : IntKind → Nat
  | int32 | uint32 => 32
  | int64 | uint64 => 64

/-- Whether negative numbers are values. -/
def signed : IntKind → Bool
  | int32 | int64 => true
  | uint32 | uint64 => false

/-- The least value. -/
def lowest : IntKind → Int
  | int32 => -2147483648
  | int64 => -9223372036854775808
  | uint32 | uint64 => 0

/-- The greatest value. -/
def highest : IntKind → Int
  | int32 => 2147483647
  | uint32 => 4294967295
  | int64 => 9223372036854775807
  | uint64 => 18446744073709551615

/-- The number that a bit vector stands for. -/
def toInt (k : IntKind) (v : BitVec k.width) : Int := if k.signed then v.toInt else v.toNat

/-- The value congruent to `i` modulo `2 ^ width`. -/
def wrap (k : IntKind) (i : Int) : BitVec k.width := BitVec.ofInt k.width i

/-- The value nearest to `i`. -/
def clamp (k : IntKind) (i : Int) : BitVec k.width := k.wrap (max k.lowest (min k.highest i))

/-- The characters of a value in decimal. -/
def chars (k : IntKind) (v : BitVec k.width) : List Char := Decimal.intChars (k.toInt v)

/-- Reads a decimal integer that lies in range. -/
def read (k : IntKind) (cs : List Char) : Option (BitVec k.width) :=
  match Decimal.readInt k.signed cs with
  | some i => if k.lowest ≤ i ∧ i ≤ k.highest then some (k.wrap i) else none
  | none => none

end IntKind

end Multimethod
