/-
  Multimethod.TypeTable — registered types, their names, and the converters between them.
-/
import Multimethod.Conversion
import Multimethod.Script

/-!
The table holds an entry for each number and four indices beside it: the first number of each type, the
first number that claimed each name, the highest number of each class, and the converter of each pair of
numbers. `allocate` is the only way in for a new number.
-/

namespace Multimethod

/-- What is registered under a number: a type, a name, for class pointer types the node of the class, and
the constructor of live default values if the class opted in. -/
structure Entry where
  ty : Ty
  name : String
  node : Option ClassNode
  maker : Option Script

/-- The registered types. -/
structure TypeTable where
  entries : Table TypeId Entry
  byType : Table Ty TypeId
  byName : Table String TypeId
  byClass : Table Nat TypeId
  converters : Table (TypeId × TypeId) Converter
  next : Nat

namespace TypeTable

/-- The table without types. -/
def empty : TypeTable := ⟨.empty, .empty, .empty, .empty, .empty, TypeId.firstUser⟩

/-- Puts a builtin type in under its number. -/
def insertBuiltin (t : TypeTable) (id : TypeId) (ty : Ty) : TypeTable :=
  { t with
    entries := t.entries.insert id ⟨ty, ty.name, none, none⟩
    byType := t.byType.insert ty id
    byName := t.byName.insert ty.name id }

/-- The converter between two builtin types. -/
def builtinConverter (source target : Ty) : Converter :=
  ⟨source, target, fun c =>
    match c.convert target with
    | some d => .done (.plain d)
    | none => .decline⟩

/-- Puts a converter between two registered types in. -/
def insertConverter (t : TypeTable) (c : Converter) : TypeTable :=
  match t.byType.find? c.source, t.byType.find? c.target with
  | some source, some target => { t with converters := t.converters.insert (source, target) c }
  | _, _ => t

/-- The builtin types, numbered from one. -/
def numberedBuiltins : List (TypeId × Ty) :=
  (List.range Ty.builtins.length).zip Ty.builtins |>.map fun p => (⟨p.1 + 1⟩, p.2)

/-- The table with the builtin types and the converters between them. -/
def builtin : TypeTable :=
  let typed := numberedBuiltins.foldl (fun t p => t.insertBuiltin p.1 p.2) empty
  Conversion.pairs.foldl (fun t p => t.insertConverter (builtinConverter p.1 p.2)) typed

/-- Gives an entry the next number. Its name is bound unless it is bound already; the number becomes the
highest of the entry's class. -/
def allocate (t : TypeTable) (e : Entry) : TypeId × TypeTable :=
  let id : TypeId := ⟨t.next⟩
  let byClass := match e.node with
    | none => t.byClass
    | some n =>
      match t.byClass.find? n.serial with
      | some highest => t.byClass.insert n.serial (if highest.val < id.val then id else highest)
      | none => t.byClass.insert n.serial id
  (id, { t with
    entries := t.entries.insert id e
    byName := t.byName.insertNew e.name id
    byClass := byClass
    next := t.next + 1 })

/-- Binds a type to its number. -/
def bindType (t : TypeTable) (ty : Ty) (id : TypeId) : TypeTable := { t with byType := t.byType.insert ty id }

/-- The description of a registered number. -/
def descriptor? (t : TypeTable) (id : TypeId) : Option Descriptor :=
  (t.entries.find? id).map fun e => ⟨id, e.name, e.node⟩

/-- The description of any number; the wildcard's is that of any type. -/
def descriptor (t : TypeTable) (id : TypeId) : Descriptor :=
  if id.isWild then Descriptor.wild else (t.descriptor? id).getD (Descriptor.unknown id)

/-- The numbers that were given on first use, ascending. -/
def userTypes (t : TypeTable) : List TypeId := t.entries.keys.filter TypeId.isUser

/-- The node of the class that a name stands for. -/
def classNamed? (t : TypeTable) (name : String) : Option ClassNode :=
  (t.byName.find? name).bind fun id => (t.entries.find? id).bind Entry.node

/-- Whether a number's class opted into live default values. -/
def hasMaker (t : TypeTable) (id : TypeId) : Bool :=
  ((t.entries.find? id).bind Entry.maker).isSome

/-- Whether two numbers are registered for one type. -/
def sameType (t : TypeTable) (a b : TypeId) : Bool :=
  match t.entries.find? a, t.entries.find? b with
  | some e, some f => e.ty == f.ty
  | _, _ => false

/-- Whether the table supports a conversion: between numbers of one type, or by a converter. -/
def converts (t : TypeTable) (source target : TypeId) : Bool :=
  source == target || t.sameType source target || t.converters.contains (source, target)

/-- Sets the constructor of live default values in every entry of one class. -/
def setMaker (t : TypeTable) (n : ClassNode) (make : Script) : TypeTable :=
  { t with
    entries := t.entries.mapValues fun e =>
      if Descriptor.sameNode e.node (some n) then { e with maker := some make } else e }

/-- The table's size in a line. -/
def text (t : TypeTable) : String :=
  Text.record "MetaTypeRegistry"
    [("types", Decimal.writeNat t.entries.size), ("converters", Decimal.writeNat t.converters.size)]

end TypeTable

end Multimethod
