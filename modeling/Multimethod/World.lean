/-
  Multimethod.World — the registries, what else changes in a run, and the steps that change it.
-/
import Multimethod.Event
import Multimethod.TypeTable

/-!
The registries are the table of types, the cache of class nodes and the factories. A world adds to them the
counters and object identities that a run has given out, and the journal. A `Step` changes a world without
running any script.
-/

namespace Multimethod

/-- The registries of a running program. -/
structure Registries where
  types : TypeTable
  classes : ClassCache
  factories : Table TypeId Script

/-- The number of factories in a line. -/
def Registries.factoriesText (r : Registries) : String :=
  Text.record "FactoryRegistry" [("factories", Decimal.writeNat r.factories.size)]

/-- The registries, the values of the counters, the number of objects made, and the journal, newest event
first. -/
structure World where
  registries : Registries
  counters : Table Nat Nat
  objects : Nat
  journal : List Event

namespace World

/-- The world in which only the builtin types are registered. -/
def fresh : World := ⟨⟨.builtin, .empty, .empty⟩, .empty, 0, []⟩

/-- The table of types. -/
@[reducible] def types (w : World) : TypeTable := w.registries.types

/-- The same world with another table of types. -/
def withTypes (w : World) (t : TypeTable) : World := { w with registries := { w.registries with types := t } }

/-- The same world with another cache of class nodes. -/
def withClasses (w : World) (c : ClassCache) : World :=
  { w with registries := { w.registries with classes := c } }

/-- The same world with other factories. -/
def withFactories (w : World) (f : Table TypeId Script) : World :=
  { w with registries := { w.registries with factories := f } }

/-- The same world after an event. -/
def note (w : World) (e : Event) : World := { w with journal := e :: w.journal }

@[simp] theorem registries_withTypes (w : World) (t : TypeTable) :
    (w.withTypes t).registries = { w.registries with types := t } := rfl

@[simp] theorem registries_withClasses (w : World) (c : ClassCache) :
    (w.withClasses c).registries = { w.registries with classes := c } := rfl

@[simp] theorem registries_withFactories (w : World) (f : Table TypeId Script) :
    (w.withFactories f).registries = { w.registries with factories := f } := rfl

@[simp] theorem registries_note (w : World) (e : Event) : (w.note e).registries = w.registries := rfl

end World

/-- A change of the world that runs no script. -/
abbrev Step := StateM World

namespace Query

/-- The answer of the registries. -/
def answer (r : Registries) : (q : Query) → q.Reply
  | descriptor id => r.types.descriptor? id
  | idNamed name => r.types.byName.find? name
  | userTypes => r.types.userTypes
  | hasMaker id => r.types.hasMaker id
  | converts source target => r.types.converts source target
  | hasFactory id => r.factories.contains id
  | typeCount => r.types.entries.size
  | converterCount => r.types.converters.size
  | factoryCount => r.factories.size

end Query

namespace Step

/-- Records an event. -/
def note (e : Event) : Step Unit := modify fun w => w.note e

/-- Asks the registries. -/
def ask (q : Query) : Step q.Reply := do return q.answer (← get).registries

/-- The node of a class. Each node that is made is recorded. -/
def node (c : ClassDecl) : Step ClassNode := fun w =>
  let (n, made, classes) := ClassCache.node c w.registries.classes
  (n, made.foldl (fun w m => w.note (.nodeMade m.name (m.superclass?.map ClassNode.name)))
    (w.withClasses classes))

/-- The node of a pointer type's class. -/
def nodeOf (t : Ty) : Step (Option ClassNode) :=
  match t.cls? with
  | some c => return some (← node c)
  | none => return none

/-- The number of a type. A type without one is registered; for a pointer type the nodes are made first. -/
def idOf (t : Ty) : Step TypeId := do
  match (← get).types.byType.find? t with
  | some id => return id
  | none =>
    let n ← nodeOf t
    let w ← get
    let (id, types) := w.types.allocate ⟨t, t.name, n, none⟩
    set (w.withTypes (types.bindType t id))
    note (.typeRegistered t.name id)
    return id

/-- The number that a type has in boxes and signatures: that of `any` is the wildcard's. -/
def typeId (t : Ty) : Step TypeId :=
  match t with
  | .any => return TypeId.wild
  | t => idOf t

/-- The description of a type in a signature. -/
def descriptorOf (t : Ty) : Step Descriptor := do
  let id ← typeId t
  return (← get).types.descriptor id

/-- Registers a further number for a type under a name. A name that is bound to the type already gives the
number it is bound to; one that is bound to another type is refused, and so is the empty name. -/
def addAlias (t : Ty) (name : String) : Step (Except AliasError TypeId) := do
  if name.isEmpty then return .error .emptyName
  let original ← idOf t
  let w ← get
  match w.types.byName.find? name with
  | some existing =>
    if (w.types.entries.find? existing).map Entry.ty = some t then return .ok existing
    else return .error (.nameConflict name existing)
  | none =>
    match w.types.entries.find? original with
    | none => return .error (.nameConflict name original)
    | some e =>
      let (id, types) := w.types.allocate { e with name := name }
      set (w.withTypes types)
      note (.aliasRegistered name id original)
      return .ok id

/-- Registers a converter, in the place of an earlier one between the same types. -/
def addConverter (c : Converter) : Step Unit := do
  let source ← typeId c.source
  let target ← typeId c.target
  modify fun w =>
    w.withTypes { w.types with converters := w.types.converters.insert (source, target) c }
  note (.converterRegistered source target)

/-- Makes the default values of a number's class live, for all numbers of that class; tells whether the
number is one of a class pointer type. -/
def setMaker (id : TypeId) (make : Script) : Step Bool := do
  let w ← get
  match (w.types.entries.find? id).bind Entry.node with
  | none => return false
  | some n =>
    set (w.withTypes (w.types.setMaker n make))
    note (.classOptedIn n.name)
    return true

/-- Registers a factory for a number, in the place of an earlier one. -/
def addFactory (id : TypeId) (make : Script) : Step Unit := do
  modify fun w => w.withFactories (w.registries.factories.insert id make)
  note (.factoryRegistered id)

/-- Registers a factory for a type that makes values by `make`. -/
def addFactoryFor (t : Ty) (make : Script) : Step TypeId := do
  let id ← typeId t
  addFactory id make
  return id

/-- Makes the default values of a class live new objects. -/
def registerClass (c : ClassDecl) : Step TypeId := do
  let id ← typeId (.pointer c)
  let make := Script.newObject (Instance.initial c)
  discard (setMaker id make)
  addFactory id make
  return id

/-- The highest number of a class's pointer type, which is registered if it was not. -/
def highestId (n : ClassNode) : Step TypeId := do
  let fallback ← typeId (.pointer n.decl)
  return ((← get).types.byClass.find? n.serial).getD fallback

/-- A new counter at zero. -/
def newCounter : Step Nat := do
  let w ← get
  let c := w.counters.size
  set { w with counters := w.counters.insert c 0 }
  return c

/-- Adds one to a counter and tells it. -/
def tick (c : Nat) : Step Nat := do
  let w ← get
  let n := (w.counters.find? c).getD 0 + 1
  set { w with counters := w.counters.insert c n }
  return n

/-- A new object with an identity of its own. -/
def allocate (i : Instance) : Step Object := do
  let w ← get
  set { w with objects := w.objects + 1 }
  return ⟨w.objects, i⟩

end Step

end Multimethod
