/-
  Multimethod.Class — declared classes and the objects of them.
-/

/-!
A class is a root or derives from one other class, and is told apart by its whole declaration, so two
classes may have one name. An instance holds one number for each class on its chain, its own first, with
the instance of the parent class inside it. An object is an instance with an identity: copies of a handle
share the object, two objects may hold equal instances.
-/

namespace Multimethod

/-- One class without its parent: a name, a number that tells classes of one name apart, and the number
that a new instance holds. -/
structure Level where
  name : String
  variant : Nat
  initial : UInt32
  deriving DecidableEq, Repr

/-- A declared class. -/
inductive ClassDecl where
  | root (level : Level)
  | derived (level : Level) (parent : ClassDecl)
  deriving DecidableEq, Repr

namespace ClassDecl

/-- The class without its parent. -/
def level : ClassDecl → Level
  | root l => l
  | derived l _ => l

/-- The name of the class. -/
def name (c : ClassDecl) : String := c.level.name

/-- The class and the classes it is derived from, up to the root. -/
def chain : ClassDecl → List ClassDecl
  | root l => [root l]
  | derived l p => derived l p :: p.chain

end ClassDecl

/-- What an object holds: a number for its class, and for a derived class an instance of the parent. -/
inductive Instance where
  | root (level : Level) (own : UInt32)
  | derived (level : Level) (own : UInt32) (parent : Instance)
  deriving DecidableEq, Repr

namespace Instance

/-- The class of an instance. -/
def cls : Instance → ClassDecl
  | root l _ => .root l
  | derived l _ p => .derived l p.cls

/-- The numbers, the own one first. -/
def numbers : Instance → List UInt32
  | root _ own => [own]
  | derived _ own p => own :: p.numbers

/-- The instance of a class with the given numbers, the own one first; each class whose number is missing
gets its initial one. -/
def ofNumbers : ClassDecl → List UInt32 → Instance
  | .root l, ns => root l (ns.headD l.initial)
  | .derived l p, ns => derived l (ns.headD l.initial) (ofNumbers p ns.tail)

/-- A new instance of a class. -/
def initial (c : ClassDecl) : Instance := ofNumbers c []

@[simp] theorem cls_ofNumbers (c : ClassDecl) (ns : List UInt32) : (ofNumbers c ns).cls = c := by
  induction c generalizing ns with
  | root l => rfl
  | derived l p ih => simp [ofNumbers, cls, ih]

end Instance

/-- An instance with an identity. -/
structure Object where
  identity : Nat
  body : Instance
  deriving DecidableEq, Repr

namespace Object

/-- The most derived class of an object. -/
def cls (o : Object) : ClassDecl := o.body.cls

end Object

/-- A pointer whose static class is `cls`, to an object or to nothing. -/
structure Handle where
  cls : ClassDecl
  target : Option Object
  deriving DecidableEq, Repr

namespace Handle

/-- The pointer of a class that points to nothing. -/
def null (c : ClassDecl) : Handle := ⟨c, none⟩

/-- Whether the pointer points to nothing. -/
def isNull (h : Handle) : Bool := h.target.isNone

/-- Whether two pointers point to one object. -/
def samePointee (h k : Handle) : Bool :=
  match h.target, k.target with
  | some o, some p => o.identity == p.identity
  | _, _ => false

end Handle

end Multimethod
