/-
  Multimethod.Number.Binary — binary floating-point numbers of two widths, exactly.
-/
import Multimethod.Number.Integer

/-!
A float is a bit vector: a sign bit, an exponent field and a fraction field. `decode` says which number
it is. Every finite one is a whole number of units, the unit being the smallest positive value of the
kind, so all arithmetic here is on naturals. `nearest` rounds a quotient of naturals to the closest
value of the kind, a tie going to the even one.
-/

namespace Multimethod

/-- The two float types. -/
inductive FloatKind where
  | single | double
  deriving DecidableEq, Repr

namespace FloatKind

/-- Number of bits. -/
def width : FloatKind → Nat
  | single => 32
  | double => 64

/-- Significant bits of a normal number, the leading one included. -/
def precision : FloatKind → Nat
  | single => 24
  | double => 53

/-- The exponent field of infinities and of what is not a number; also its greatest value. -/
def topExponent : FloatKind → Nat
  | single => 255
  | double => 2047

/-- The unit is `2 ^ -unitPlaces`. -/
def unitPlaces : FloatKind → Nat
  | single => 149
  | double => 1074

/-- The weight of the implicit leading bit and of the exponent field, `2 ^ (precision - 1)`. -/
def leading : FloatKind → Nat
  | single => 8388608
  | double => 4503599627370496

/-- The units in one. -/
def one (f : FloatKind) : Nat := Nat.pow 2 f.unitPlaces

/-- What the bits of a float stand for; a finite number is a sign and a number of units. -/
inductive Number where
  | nan
  | infinite (negative : Bool)
  | finite (negative : Bool) (units : Nat)
  deriving DecidableEq, Repr

/-- The exponent field. -/
def exponentField (f : FloatKind) (bits : BitVec f.width) : Nat := bits.toNat / f.leading % (f.topExponent + 1)

/-- The fraction field. -/
def fractionField (f : FloatKind) (bits : BitVec f.width) : Nat := bits.toNat % f.leading

/-- The number that the bits stand for. -/
def decode (f : FloatKind) (bits : BitVec f.width) : Number :=
  let e := f.exponentField bits
  let m := f.fractionField bits
  if e = f.topExponent then (if m = 0 then .infinite bits.msb else .nan)
  else if e = 0 then .finite bits.msb m
  else .finite bits.msb ((f.leading + m) * Nat.pow 2 (e - 1))

/-- The bits with the given sign, the other fields being given by one number. -/
def withSign (f : FloatKind) (negative : Bool) (magnitude : Nat) : BitVec f.width :=
  BitVec.ofNat f.width ((if negative then Nat.pow 2 (f.width - 1) else 0) + magnitude)

/-- Infinity. -/
def infinity (f : FloatKind) (negative : Bool) : BitVec f.width := f.withSign negative (f.topExponent * f.leading)

/-- The value that is not a number, with the leading fraction bit set. -/
def notANumber (f : FloatKind) (negative : Bool) : BitVec f.width :=
  f.withSign negative (f.topExponent * f.leading + f.leading / 2)

/-- The natural number nearest to `num / den`; a tie goes to the even one. -/
def divideToEven (num den : Nat) : Nat :=
  let q := num / den
  let r := num % den
  if 2 * r < den then q
  else if den < 2 * r then q + 1
  else q + q % 2

/-- The exponent of the last significant bit of a number of `q` units. -/
def lastPlace (f : FloatKind) (q : Nat) : Nat := if q = 0 then 0 else q.log2 + 1 - f.precision

/-- The float of a significand `m` of at most `precision` bits, shifted by `place`; the carry out of a
significand of all ones moves into the exponent field by itself. -/
def encode (f : FloatKind) (negative : Bool) (m place : Nat) : BitVec f.width :=
  let magnitude := place * f.leading + m
  if f.topExponent * f.leading ≤ magnitude then f.infinity negative else f.withSign negative magnitude

/-- The float nearest to `num / den`, `den` being positive; beyond the greatest finite value by half a
last place or more, infinity. -/
def nearest (f : FloatKind) (negative : Bool) (num den : Nat) : BitVec f.width :=
  let scaled := num * f.one
  let place := f.lastPlace (scaled / den)
  f.encode negative (divideToEven scaled (den * Nat.pow 2 place)) place

/-- The float nearest to an integer; zero is positive. -/
def ofInt (f : FloatKind) (i : Int) : BitVec f.width := f.nearest (i < 0) i.natAbs 1

/-- The float of kind `g` nearest to one of kind `f`. -/
def convert (f g : FloatKind) (bits : BitVec f.width) : BitVec g.width :=
  match f.decode bits with
  | .nan => g.notANumber bits.msb
  | .infinite negative => g.infinity negative
  | .finite negative units => g.nearest negative units f.one

/-- The value of an integer type nearest to the float cut off after the point; what is not a number
gives zero. -/
def toInteger (f : FloatKind) (k : IntKind) (bits : BitVec f.width) : BitVec k.width :=
  match f.decode bits with
  | .nan => k.wrap 0
  | .infinite negative => k.wrap (if negative then k.lowest else k.highest)
  | .finite negative units =>
    let whole : Nat := units / f.one
    k.clamp (if negative then -(whole : Int) else whole)

/-- Whether the float is a zero of either sign. -/
def isZero (f : FloatKind) (bits : BitVec f.width) : Bool :=
  match f.decode bits with
  | .finite _ units => units == 0
  | _ => false

end FloatKind

end Multimethod
