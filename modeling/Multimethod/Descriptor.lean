/-
  Multimethod.Descriptor — types as they are seen at run time.
-/
import Multimethod.Ty
import Multimethod.Class.Node

/-!
A descriptor holds a type's number, its name, and for class pointer types the node of the class. Two
descriptors are of one type when the numbers agree or both have the same node, for a class may be
registered under several numbers. `exact` asks the nodes as soon as one side has one.
-/

namespace Multimethod

/-- The run-time description of a type. -/
structure Descriptor where
  id : TypeId
  name : String
  node : Option ClassNode
  deriving DecidableEq, Repr

namespace Descriptor

/-- The description of any type. -/
def wild : Descriptor := ⟨TypeId.wild, "", none⟩

/-- The description of a number that is not registered. -/
def unknown (i : TypeId) : Descriptor := ⟨i, "", none⟩

/-- Whether the descriptor stands for any type. -/
def isWild (d : Descriptor) : Bool := d.id.isWild

/-- Whether the descriptor is of a class pointer type. -/
def isClass (d : Descriptor) : Bool := d.node.isSome

/-- Whether two optional nodes are both there and one node. -/
def sameNode : Option ClassNode → Option ClassNode → Bool
  | some n, some m => n.same m
  | _, _ => false

/-- Whether two descriptors are of one type. -/
def same (a b : Descriptor) : Bool := a.id == b.id || sameNode a.node b.node

/-- Whether an argument type is exactly a parameter type. -/
def isExactly (a b : Descriptor) : Bool :=
  if a.isClass || b.isClass then sameNode a.node b.node else a.id == b.id

/-- Whether each argument type is exactly its parameter type; missing arguments match. -/
def allExactly (args params : List Descriptor) : Bool := (args.zip params).all fun p => p.1.isExactly p.2

/-- Whether two lists of types are of one length and agree at each place. -/
def sameList : List Descriptor → List Descriptor → Bool
  | [], [] => true
  | a :: as, b :: bs => a.same b && sameList as bs
  | _, _ => false

/-- The name, or what stands for a missing one. -/
def text (d : Descriptor) : String :=
  if d.isWild then "<any>" else if d.name.isEmpty then "<unknown:" ++ d.id.text ++ ">" else d.name

/-- The descriptor with its fields. -/
def recordText (d : Descriptor) : String :=
  Text.record "TypeDescriptor"
    [("id", d.id.recordText), ("name", Text.quote d.name),
     ("class", Text.optional (d.node.map fun n => Text.quote n.name))]

end Descriptor

end Multimethod
