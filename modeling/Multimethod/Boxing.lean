/-
  Multimethod.Boxing — putting values into boxes and telling the type of a box.
-/
import Multimethod.Pointer

/-!
A box keeps the number its type had when the value was put in. A box with a live object tells another one:
the highest number of the object's most derived class, whatever pointer it was boxed as.
-/

namespace Multimethod

/-- A box as text, given its type: that type and, for pointers, whether there is an object. -/
def Box.text (b : Box) (d : Descriptor) : String :=
  match b with
  | .null => "AnyValue(null)"
  | .plain _ _ => "AnyValue(" ++ d.text ++ ")"
  | .object _ target => "AnyValue(" ++ d.text ++ ", " ++ (if target.isSome then "live" else "null") ++ ")"

namespace Step

/-- Puts a value into a box. The unit value gives the box with nothing in it, a box gives itself. -/
def box (v : Value) : Step Box :=
  match v with
  | .unit => return .null
  | .any b => return b
  | .plain c => return .plain (← typeId c.ty) c
  | .pointer h => return .object (← typeId (.pointer h.cls)) h.target

/-- The type of a box. -/
def describe (b : Box) : Step Descriptor :=
  match b with
  | .null => return Descriptor.wild
  | .plain id _ => return (← get).types.descriptor id
  | .object id none => return (← get).types.descriptor id
  | .object _ (some o) => do
    let n ← node o.cls
    let id ← highestId n
    return ⟨id, ((← get).types.descriptor id).name, some n⟩

/-- The types of boxes, in order. -/
def typesOf (bs : List Box) : Step (List Descriptor) := bs.mapM describe

/-- Whether a box converts to a type: contents by the table, pointers to the classes theirs inherits. -/
def canConvert (b : Box) (wanted : TypeId) : Step Bool :=
  match b with
  | .null => return false
  | .plain id _ => return (← get).types.converts id wanted
  | .object _ _ => do
    let own ← describe b
    if own.id = wanted then return true
    match own.node, ((← get).types.descriptor wanted).node with
    | some n, some m => return n.inherits m
    | _, _ => return false

/-- The default value of the type of a number, in a box, never a live object. -/
def nullValue (id : TypeId) : Step Box := do
  match (← get).types.entries.find? id with
  | some e => box e.ty.default
  | none => return .null

/-- The box as text. -/
def boxText (b : Box) : Step String := return b.text (← describe b)

end Step

end Multimethod
