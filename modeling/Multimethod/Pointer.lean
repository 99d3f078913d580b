/-
  Multimethod.Pointer — pointers to objects: casting them and looking through them.
-/
import Multimethod.World

/-!
A pointer may be cast to a class that its object's class inherits; otherwise the cast points to nothing.
`viewAs` walks from an object into the instances inside it until it meets the wanted class, whereas casts
follow the links between nodes.
-/

namespace Multimethod

namespace Step

/-- The pointer of a class to an object whose class inherits it. -/
def pointTo (o : Object) (c : ClassDecl) : Step (Option Handle) := do
  let n ← node o.cls
  let m ← node c
  return if n.inherits m then some ⟨c, some o⟩ else none

/-- A pointer of another class to the same object, or to nothing. -/
def cast (h : Handle) (c : ClassDecl) : Step Handle :=
  match h.target with
  | none => return Handle.null c
  | some o => return (← pointTo o c).getD (Handle.null c)

/-- The node of the object's most derived class, or of the pointer's own class when it points to nothing. -/
def classOf (h : Handle) : Step ClassNode :=
  match h.target with
  | some o => node o.cls
  | none => node h.cls

/-- The instance inside `i`, or `i` itself, whose class has the node `n`. -/
def viewAs (n : ClassNode) : Instance → Step (Option Instance)
  | .root l own => do
    let self ← node (Instance.root l own).cls
    return if self.same n then some (.root l own) else none
  | .derived l own p => do
    let self ← node (Instance.derived l own p).cls
    if self.same n then return some (.derived l own p) else viewAs n p

/-- The part of the pointer's object that belongs to the pointer's class. -/
def view (h : Handle) : Step (Option Instance) :=
  match h.target with
  | none => return none
  | some o => do
    let n ← node h.cls
    return (← viewAs n o.body).filter fun i => i.cls = h.cls

/-- The pointer in a record: the class of its object and whether it points to nothing. -/
def pointerText (h : Handle) : Step String := do
  let n ← classOf h
  return Text.record "ObjectPtr"
    [("class", Text.quote n.name), ("null", if h.isNull then "true" else "false")]

end Step

end Multimethod
