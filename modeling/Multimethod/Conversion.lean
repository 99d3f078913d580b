/-
  Multimethod.Conversion — the conversions between builtin types.
-/
import Multimethod.Box
import Multimethod.Number.Shortest
import Multimethod.Text.Blank

/-!
Numbers convert to numbers of any type, losing what does not fit: integers keep their residue, floats are
cut off and held in range, whatever becomes a float is rounded to the nearest. Numbers and truth values are
written as text and read from it, white space around the text being ignored; reading may fail. Hashes and
maps hold the same pairs. `pairs` lists the supported pairs of types, `Content.convert` converts.
-/

namespace Multimethod

namespace Conversion

/-- The number types. -/
def numbers : List Ty :=
  [.int .int32, .int .uint32, .int .int64, .int .uint64, .float .single, .float .double]

/-- The pairs of builtin types that convert, source first. -/
def pairs : List (Ty × Ty) :=
  numbers.flatMap (fun s => numbers.map fun t => (s, t))
    ++ numbers.flatMap (fun t => [(t, .bool), (.bool, t), (t, .text), (.text, t)])
    ++ [(.bool, .text), (.text, .bool), (.hash, .map), (.map, .hash)]

/-- The number that stands for a truth value. -/
def truthNumber (b : Bool) : Int := if b then 1 else 0

/-- Reads a truth value: a word or a digit, nothing at all being false. -/
def readTruth (cs : List Char) : Option Bool :=
  if cs = "true".toList ∨ cs = "1".toList then some true
  else if cs = "false".toList ∨ cs = "0".toList ∨ cs = [] then some false
  else none

end Conversion

namespace Content

/-- The content as one of builtin type `t`, where the pair is supported and the conversion succeeds. -/
def convert (c : Content) (t : Ty) : Option Content :=
  match c, t with
  | .int k v, .int l => some (.int l (l.wrap (k.toInt v)))
  | .int k v, .float f => some (.float f (f.ofInt (k.toInt v)))
  | .int k v, .bool => some (.bool (k.toInt v != 0))
  | .int k v, .text => some (.text (String.ofList (k.chars v)))
  | .float f bits, .int k => some (.int k (f.toInteger k bits))
  | .float f bits, .float g => some (.float g (f.convert g bits))
  | .float f bits, .bool => some (.bool (!f.isZero bits))
  | .float f bits, .text => some (.text (String.ofList (f.chars bits)))
  | .bool b, .int k => some (.int k (k.wrap (Conversion.truthNumber b)))
  | .bool b, .float f => some (.float f (f.ofInt (Conversion.truthNumber b)))
  | .bool b, .text => some (.text (if b then "true" else "false"))
  | .text s, .int k => (k.read (Text.trim s.toList)).map (.int k)
  | .text s, .float f => (f.read (Text.trim s.toList)).map (.float f)
  | .text s, .bool => (Conversion.readTruth (Text.trim s.toList)).map .bool
  | .hash ps, .map => some (.map ps)
  | .map ps, .hash => some (.hash ps)
  | _, _ => none

end Content

end Multimethod
