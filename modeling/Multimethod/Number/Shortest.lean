/-
  Multimethod.Number.Shortest — the fewest decimal digits that read back as the same float.
-/
import Multimethod.Number.Binary

/-!
The reals that round to a given float form an interval around it, with its ends when the significand is
even. For `n = 1, 2, …` digits, `shortest` tries the two neighbours of the value on the grid of `n` digits;
the first grid with a hit gives the digits, of two hits the nearer one, and the greater one of two that are
equally near. All quantities are compared in quarters of a unit, as naturals.
-/

namespace Multimethod.FloatKind

/-- A positive float as a rounding interval, in quarters of a unit: the value, the distances to both ends,
and whether the ends belong to it. -/
structure Interval where
  value : Nat
  below : Nat
  above : Nat
  closed : Bool
  deriving DecidableEq, Repr

/-- The interval of a positive number of units. Below a power of two with a larger last place the
neighbour is half as far away. -/
def interval (f : FloatKind) (units : Nat) : Interval :=
  let place := f.lastPlace units
  let last := Nat.pow 2 place
  let half := 2 * last
  let significand := units / last
  ⟨4 * units, if significand = f.leading ∧ 0 < place then half / 2 else half, half, significand % 2 = 0⟩

/-- Whether `d * 10 ^ k` (times the quarters in one, `scale`) lies in the interval. -/
def Interval.holds (i : Interval) (scale : Nat) (d : Nat) (k : Int) : Bool :=
  let grid := d * Nat.pow 10 k.toNat * scale
  let unit := Nat.pow 10 (-k).toNat
  let low := (i.value - i.below) * unit
  let high := (i.value + i.above) * unit
  if i.closed then low ≤ grid && grid ≤ high else low < grid && grid < high

/-- The two neighbours of the value on the grid `10 ^ k`, the nearer one first. -/
def Interval.neighbours (i : Interval) (scale : Nat) (k : Int) : Nat × Nat :=
  let num := i.value * Nat.pow 10 (-k).toNat
  let den := scale * Nat.pow 10 k.toNat
  let d := num / den
  if 2 * (num % den) < den then (d, d + 1) else (d + 1, d)

/-- The least `k` with `value < 10 ^ k`, found by counting the digits of the whole part or, below one,
the places up to the first digit. -/
def decimalPlaces (value scale : Nat) : Int :=
  let whole := value / scale
  if 0 < whole then (Decimal.digits whole).length
  else
    let inverse := (scale - 1) / value
    1 - (Decimal.digits inverse).length

/-- The first grid from `n` digits on that has a point in the interval. -/
def search (i : Interval) (scale : Nat) (places : Int) : Nat → Nat → Nat × Int
  | 0, n => ((i.neighbours scale (places - n)).1, places - n)
  | fuel + 1, n =>
    let k := places - n
    let (near, far) := i.neighbours scale k
    if i.holds scale near k then (near, k)
    else if i.holds scale far k then (far, k)
    else search i scale places fuel (n + 1)

/-- Digits `d` and exponent `k` such that `d * 10 ^ k` is the decimal of fewest digits that reads back as
the positive number of units. Eighteen digits are more than any value of either kind needs. -/
def shortest (f : FloatKind) (units : Nat) : Nat × Int :=
  let i := f.interval units
  let scale := 4 * f.one
  search i scale (decimalPlaces i.value scale) 18 1

/-! ## Layout -/

/-- Digits `d * 10 ^ k` written without an exponent: zeros fill up to the point or after it. -/
def positional (d : Nat) (k : Int) : List Char :=
  let ds := Decimal.natChars d
  if 0 ≤ k then ds ++ List.replicate k.toNat '0'
  else
    let places := (-k).toNat
    let padded := List.replicate (places + 1 - ds.length) '0' ++ ds
    padded.take (padded.length - places) ++ '.' :: padded.drop (padded.length - places)

/-- Drops the zeros at the end of a number's digits into the exponent. -/
def trimZeros (d : Nat) (k : Int) : Nat × Int :=
  if h : d ≠ 0 ∧ d % 10 = 0 then trimZeros (d / 10) (k + 1) else (d, k)
termination_by d
decreasing_by omega

/-- Floats are written with the fewest digits that read back, never with an exponent, whole numbers
without a point, and zero with its sign. -/
def chars (f : FloatKind) (bits : BitVec f.width) : List Char :=
  match f.decode bits with
  | .nan => "NaN".toList
  | .infinite negative => if negative then "-inf".toList else "inf".toList
  | .finite negative units =>
    let body := if units = 0 then ['0'] else
      let (d, k) := f.shortest units
      let (d, k) := trimZeros d k
      positional d k
    if negative then '-' :: body else body

/-! ## Reading -/

/-- The float nearest to a numeral. -/
def ofNumeral (f : FloatKind) (negative : Bool) (n : Decimal.Numeral) : BitVec f.width :=
  f.nearest negative (n.mantissa * Nat.pow 10 n.exponent.toNat) (Nat.pow 10 (-n.exponent).toNat)

/-- Reads a float without its sign: a numeral, or one of three words in letters of either case. -/
def readUnsigned (f : FloatKind) (negative : Bool) (cs : List Char) : Option (BitVec f.width) :=
  let word := cs.map Char.toLower
  if word = "inf".toList ∨ word = "infinity".toList then some (f.infinity negative)
  else if word = "nan".toList then some (f.notANumber negative)
  else (Decimal.Numeral.read cs).map (f.ofNumeral negative)

/-- Reads a float after an optional sign. -/
def read (f : FloatKind) : List Char → Option (BitVec f.width)
  | '+' :: rest => f.readUnsigned false rest
  | '-' :: rest => f.readUnsigned true rest
  | cs => f.readUnsigned false cs

end Multimethod.FloatKind
