/-
  Multimethod.Script — behaviour that is stored: converters, factories, constructors, function bodies.
-/
import Multimethod.Box
import Multimethod.Descriptor

/-!
Stored behaviour may itself register types, convert and create. It is kept as a tree: a `Script` ends with
a value or declines, or it does one thing, gets the reply and goes on. What can be done is an `Action`, or
one of the three registrations that take behaviour themselves. A script says what is done and nothing about
how; running it is the matter of a later module.
-/

namespace Multimethod

/-- Why an alias is refused. -/
inductive AliasError where
  | emptyName
  | nameConflict (name : String) (existing : TypeId)
  deriving DecidableEq, Repr

namespace AliasError

/-- The message of a refusal. -/
def message : AliasError → String
  | emptyName => "Type name cannot be empty"
  | nameConflict name existing => "Type name '" ++ name ++ "' already bound to id " ++ existing.text

end AliasError

/-- A question to the registries; asking changes nothing. -/
inductive Query where
  | descriptor (id : TypeId)
  | idNamed (name : String)
  | userTypes
  | hasMaker (id : TypeId)
  | converts (source target : TypeId)
  | hasFactory (id : TypeId)
  | typeCount
  | converterCount
  | factoryCount

/-- What a question is answered with. -/
def Query.Reply : Query → Type
  | descriptor _ => Option Descriptor
  | idNamed _ => Option TypeId
  | userTypes => List TypeId
  | hasMaker _ | converts _ _ | hasFactory _ => Bool
  | typeCount | converterCount | factoryCount => Nat

/-- One thing that a script may do. -/
inductive Action where
  /-- asks the registries -/
  | ask (q : Query)
  /-- the number of a type, registered if need be, `any` included -/
  | idOf (t : Ty)
  /-- the number of a type, `any` having the wildcard's -/
  | typeId (t : Ty)
  /-- a further number for a type, under a name of its own -/
  | addAlias (t : Ty) (name : String)
  /-- the node of a class -/
  | node (c : ClassDecl)
  /-- the highest number of a class's pointer type -/
  | highestId (n : ClassNode)
  /-- a new object -/
  | allocate (i : Instance)
  /-- a pointer to the same object, of another static class -/
  | cast (h : Handle) (c : ClassDecl)
  /-- a pointer of a class to an object -/
  | pointTo (o : Object) (c : ClassDecl)
  /-- the class of a pointer's object, or its static class -/
  | classOf (h : Handle)
  /-- the part of a pointer's object that belongs to its static class -/
  | view (h : Handle)
  /-- a value in a box -/
  | box (v : Value)
  /-- the type of a box -/
  | describe (b : Box)
  /-- whether a box converts -/
  | canConvert (b : Box) (wanted : TypeId)
  /-- a box converted by the table -/
  | tableConvert (b : Box) (wanted : TypeId)
  /-- a box converted, or nothing in it -/
  | convert (b : Box) (wanted : TypeId)
  /-- a value read from a box -/
  | read (b : Box) (t : Ty)
  /-- a default value, live where the class opted in -/
  | defaultValue (id : TypeId)
  /-- a default value, never live -/
  | nullValue (id : TypeId)
  /-- a value from the factory, or a default value -/
  | create (id : TypeId)
  /-- whether one type can stand for another -/
  | isConvertible (a b : Descriptor)
  /-- adds one to a counter and tells it -/
  | tick (counter : Nat)

/-- What an action gives. -/
def Action.Reply : Action → Type
  | ask q => q.Reply
  | idOf _ | typeId _ | highestId _ => TypeId
  | addAlias _ _ => Except AliasError TypeId
  | node _ | classOf _ => ClassNode
  | allocate _ => Object
  | cast _ _ => Handle
  | pointTo _ _ => Option Handle
  | view _ => Option Instance
  | box _ | convert _ _ | defaultValue _ | nullValue _ | create _ => Box
  | describe _ => Descriptor
  | canConvert _ _ | isConvertible _ _ => Bool
  | tableConvert _ _ => Option Box
  | read _ _ => Option Value
  | tick _ => Nat

/-- Stored behaviour. -/
inductive Script where
  | done (v : Value)
  | decline
  | act (a : Action) (next : a.Reply → Script)
  | addConverter (source target : Ty) (run : Content → Script) (next : Script)
  | setMaker (id : TypeId) (make : Script) (next : Bool → Script)
  | addFactory (id : TypeId) (make : Script) (next : Script)

namespace Script

/-- Reads a value of type `t`, or takes the default value. -/
def readOr (b : Box) (t : Ty) (k : Value → Script) : Script :=
  act (.read b t) fun v => k (v.getD t.default)

/-- Makes a new object of a class and ends with a pointer to it. -/
def newObject (i : Instance) : Script :=
  act (.allocate i) fun o => done (.pointer ⟨i.cls, some o⟩)

end Script

/-- A conversion between two types: `run` gets a content of type `source`; an answer counts only when it is
a value of type `target`. -/
structure Converter where
  source : Ty
  target : Ty
  run : Content → Script

end Multimethod
