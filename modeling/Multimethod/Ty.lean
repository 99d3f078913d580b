/-
  Multimethod.Ty — the types of values, and the numbers by which a registry knows them.
-/
import Multimethod.Class
import Multimethod.Number.Binary

/-!
A type is builtin, a custom type of the application, or the pointer type of a class. A registry gives each
type a number on first use; `TypeId` is such a number. Number 0 is the wildcard, 1 to 12 belong to the
builtin types in the order of `Ty.builtins`, all others are given from `TypeId.firstUser` on.
-/

namespace Multimethod

/-- The number of a registered type. -/
structure TypeId where
  val : Nat
  deriving DecidableEq, Repr

namespace TypeId

/-- The number that stands for any type. -/
def wild : TypeId := ⟨0⟩

/-- The number of the type of maps. -/
def map : TypeId := ⟨11⟩

/-- The least number of a type that is not builtin. -/
def firstUser : Nat := 1024

/-- Whether the number is the wildcard. -/
def isWild (i : TypeId) : Bool := i == wild

/-- Whether the number is one that is given on first use. -/
def isUser (i : TypeId) : Bool := firstUser ≤ i.val

/-- The number in decimal. -/
def text (i : TypeId) : String := Decimal.writeNat i.val

/-- The number as it stands in a record. -/
def recordText (i : TypeId) : String := "TypeId(" ++ i.text ++ ")"

end TypeId

/-- What a value of a custom type holds. -/
inductive Datum where
  | real (bits : BitVec FloatKind.double.width)
  | text (s : String)
  | number (i : Int)
  deriving DecidableEq, Repr

/-- A type of the application: a key that tells types of one name apart, the name under which it is
registered, and what its default value holds. -/
structure CustomType where
  key : String
  name : String
  initial : Datum
  deriving DecidableEq, Repr

/-- The types of values. `any` is the type of a box taken as a value. -/
inductive Ty where
  | void
  | bool
  | int (kind : IntKind)
  | float (kind : FloatKind)
  | text
  | list
  | map
  | hash
  | any
  | custom (type : CustomType)
  | pointer (cls : ClassDecl)
  deriving DecidableEq, Repr

namespace Ty

/-- The name under which a type is registered. -/
def name : Ty → String
  | void => "void"
  | bool => "bool"
  | int .int32 => "i32"
  | int .uint32 => "u32"
  | int .int64 => "i64"
  | int .uint64 => "u64"
  | float .single => "f32"
  | float .double => "f64"
  | text => "String"
  | list => "AnyList"
  | map => "AnyMap"
  | hash => "AnyHash"
  | any => "AnyValue"
  | custom t => t.name
  | pointer c => "ObjectPtr<" ++ c.name ++ ">"

/-- The class of a pointer type. -/
def cls? : Ty → Option ClassDecl
  | pointer c => some c
  | _ => none

/-- The builtin types; the first has the number 1, and so on. -/
def builtins : List Ty :=
  [void, bool, int .int32, int .uint32, int .int64, int .uint64, float .single, float .double, text, list,
   map, hash]

end Ty

end Multimethod
