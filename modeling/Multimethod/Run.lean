/-
  Multimethod.Run — what may run scripts: conversion, reading, creation and matching.
-/
import Multimethod.Boxing

/-!
A `Run` changes a world and may call scripts; how a script is called is given to it. It has no result when
the calls nest deeper than allowed. The type test `isConvertible` asks a default value of the source type
whether it converts, so it may run a factory; contents are never looked at.
-/

namespace Multimethod

/-- How a stored script is called: it ends with a value or declines, unless the calls nest too deep. -/
abbrev Caller := Script → StateT World Option (Option Value)

/-- A change of the world that may call scripts. -/
abbrev Run := ReaderT Caller (StateT World Option)

namespace Run

/-- A step calls no script. -/
def ofStep {α : Type} (s : Step α) : Run α := fun _ w => some (s w)

instance : MonadLift Step Run := ⟨ofStep⟩

/-- Calls a script. -/
def call (s : Script) : Run (Option Value) := fun caller => caller s

/-- Calls a script and puts what it ends with into a box; nothing if it declines. -/
def callBoxed (s : Script) : Run Box := do
  match ← call s with
  | some v => Step.box v
  | none => return .null

/-- Runs a converter on the content of a box, if that is of the converter's source type. -/
def applyConverter (c : Converter) (b : Box) : Run (Option Box) := do
  match b.downcast c.source with
  | none => return none
  | some x =>
    match ← call (c.run x) with
    | none => return none
    | some v => if v.ty = c.target then return some (← Step.box v) else return none

/-- Converts a box by the table: itself when it is of the type already, else by the registered converter. -/
def tableConvert (b : Box) (wanted : TypeId) : Run (Option Box) := do
  let own ← Step.describe b
  if own.id = wanted then return some b
  let types := (← (get : Step World)).types
  if types.sameType own.id wanted then return some b
  match types.converters.find? (own.id, wanted) with
  | none => return none
  | some c => applyConverter c b

/-- Converts a box; nothing if that fails. A pointer keeps its object and gets the new static type. -/
def convert (b : Box) (wanted : TypeId) : Run Box := do
  match b with
  | .object _ target => if ← Step.canConvert b wanted then return .object wanted target else return .null
  | _ => return (← tableConvert b wanted).getD .null

/-- Reads a content of type `t`: the content itself, or what the table converts it to. -/
def readContent (b : Box) (t : Ty) : Run (Option Value) := do
  match b.downcast t with
  | some c => return some (.plain c)
  | none =>
    match b with
    | .plain _ _ =>
      let wanted ← Step.typeId t
      return ((← tableConvert b wanted).bind fun converted => converted.downcast t).map .plain
    | _ => return none

/-- Reads a value of type `t`. The unit value and the box itself are always there; a pointer is read from
the object in the box only. -/
def read (b : Box) (t : Ty) : Run (Option Value) :=
  match t with
  | .void => return some .unit
  | .any => return some (.any b)
  | .pointer c =>
    match b.object? with
    | none => return none
    | some o => return (← Step.pointTo o c).map .pointer
  | t => readContent b t

/-- Reads a value of type `t`, or takes the default value. -/
def readOr (b : Box) (t : Ty) : Run Value := return (← read b t).getD t.default

/-- The default value of the type of a number, in a box: a live object if the class opted in. -/
def defaultValue (id : TypeId) : Run Box := do
  match ((← (get : Step World)).types.entries.find? id).bind Entry.maker with
  | some make => callBoxed make
  | none => Step.nullValue id

/-- A value of the type of a number: what its factory makes, or the default value. -/
def create (id : TypeId) : Run Box := do
  match (← (get : Step World)).registries.factories.find? id with
  | some make => callBoxed make
  | none => defaultValue id

/-- A value of the type that a name stands for. -/
def createNamed (name : String) : Run Box := do
  match (← (get : Step World)).types.byName.find? name with
  | some id => create id
  | none => return .null

/-- Whether a value of type `a` can stand where `b` is expected: `b` is the same type or any type; or both
are classes and `a` inherits `b`; or a value made of type `a` converts. Nothing else converts to maps. -/
def isConvertible (a b : Descriptor) : Run Bool := do
  if a.same b || b.isWild then return true
  if b.id = TypeId.map then return false
  match a.node with
  | some n =>
    match b.node with
    | some m => return n.inherits m
    | none => return false
  | none =>
    let probe ← create a.id
    if probe.isNull then return false
    Step.canConvert probe b.id

/-- Whether each argument type converts to its parameter type; missing arguments match. The first that does
not ends the test. -/
def allConvertible : List Descriptor → List Descriptor → Run Bool
  | a :: args, p :: params => do
    if ← isConvertible a p then allConvertible args params else return false
  | _, _ => return true

/-- The elements of a list that pass a test, tested in order. -/
def select {α : Type} (test : α → Run Bool) : List α → Run (List α)
  | [] => return []
  | x :: rest => do
    let passed ← test x
    let others ← select test rest
    return if passed then x :: others else others

/-- The registered user types, or those that convert to a type. -/
def listTypes (wanted : Option Descriptor) : Run (List TypeId) := do
  let ids := (← (get : Step World)).types.userTypes
  match wanted with
  | none => return ids
  | some d => select (fun id => do isConvertible ((← (get : Step World)).types.descriptor id) d) ids

end Run

end Multimethod
