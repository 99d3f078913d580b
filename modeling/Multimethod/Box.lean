/-
  Multimethod.Box — values, and boxes that hold a value of any type.
-/
import Multimethod.Ty

/-!
A box holds nothing, the content of a value together with the number of its type, or a pointer together
with the number of a pointer type. A `Value` is what goes into a box and comes out of it: boxing the unit
value gives the box that holds nothing, and boxing a box gives that box itself, so no content is of type
`void`, `any` or a pointer type.
-/

namespace Multimethod

mutual

/-- What a box holds of a value that is not a pointer. Maps and hashes list their pairs by ascending key. -/
inductive Content where
  | bool (b : Bool)
  | int (kind : IntKind) (v : BitVec kind.width)
  | float (kind : FloatKind) (bits : BitVec kind.width)
  | text (s : String)
  | list (items : List Box)
  | map (pairs : List (String × Box))
  | hash (pairs : List (String × Box))
  | custom (type : CustomType) (held : Datum)

/-- A box. -/
inductive Box where
  | null
  | plain (id : TypeId) (content : Content)
  | object (id : TypeId) (target : Option Object)

end

namespace Content

/-- The type of a content. -/
def ty : Content → Ty
  | bool _ => .bool
  | int k _ => .int k
  | float f _ => .float f
  | text _ => .text
  | list _ => .list
  | map _ => .map
  | hash _ => .hash
  | custom t _ => .custom t

/-- Puts a pair into a list of pairs with ascending keys, in the place of one with the same key. -/
def putPair (key : String) (b : Box) : List (String × Box) → List (String × Box)
  | [] => [(key, b)]
  | p :: rest =>
    if p.1 = key then (key, b) :: rest
    else if key < p.1 then (key, b) :: p :: rest
    else p :: putPair key b rest

/-- The pairs by ascending key; of two with one key the later one counts. -/
def sortPairs (pairs : List (String × Box)) : List (String × Box) :=
  pairs.foldl (fun acc p => putPair p.1 p.2 acc) []

end Content

namespace Box

/-- Whether the box holds nothing. A pointer to nothing is something. -/
def isNull : Box → Bool
  | null => true
  | _ => false

/-- The object that the box points to. -/
def object? : Box → Option Object
  | object _ target => target
  | _ => none

/-- Whether the box shares an object. -/
def ownsObject (b : Box) : Bool := b.object?.isSome

/-- The content of exactly type `t`. -/
def downcast (b : Box) (t : Ty) : Option Content :=
  match b with
  | plain _ c => if c.ty = t then some c else none
  | _ => none

/-- The box without its share of an object: a pointer to nothing of the same static type. -/
def release : Box → Box
  | object id _ => object id none
  | b => b

end Box

/-- A value: the unit value, a box taken as a value, a content, or a pointer. -/
inductive Value where
  | unit
  | any (b : Box)
  | plain (c : Content)
  | pointer (h : Handle)

namespace Value

/-- The type of a value. -/
def ty : Value → Ty
  | unit => .void
  | any _ => .any
  | plain c => c.ty
  | pointer h => .pointer h.cls

end Value

/-- The default value of a type: false, zero, nothing in it, pointing to nothing, or what the custom type
says. -/
def Ty.default : Ty → Value
  | .void => .unit
  | .bool => .plain (.bool false)
  | .int k => .plain (.int k (k.wrap 0))
  | .float f => .plain (.float f (f.withSign false 0))
  | .text => .plain (.text "")
  | .list => .plain (.list [])
  | .map => .plain (.map [])
  | .hash => .plain (.hash [])
  | .any => .any .null
  | .custom t => .plain (.custom t t.initial)
  | .pointer c => .pointer (Handle.null c)

@[simp] theorem Ty.ty_default (t : Ty) : t.default.ty = t := by cases t <;> rfl

end Multimethod
