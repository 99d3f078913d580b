/-
  Multimethod.Event — what the journal records.
-/
import Multimethod.Descriptor

/-!
Every registration is recorded, and every selection that finds nothing. An event keeps what happened; its
text is made when it is read.
-/

namespace Multimethod

/-- An entry of the journal. -/
inductive Event where
  | nodeMade (name : String) (superclass : Option String)
  | typeRegistered (name : String) (id : TypeId)
  | aliasRegistered (name : String) (id original : TypeId)
  | converterRegistered (source target : TypeId)
  | classOptedIn (name : String)
  | factoryRegistered (id : TypeId)
  | functionAppended (function : String)
  | functionRemoved (count : Nat) (function : String)
  | tooManyTypes (count arity : Nat)
  | nothingSelected (types : List Descriptor)
  deriving DecidableEq, Repr

namespace Event

/-- Whether the event is a selection that found nothing, which is of less weight than a change. -/
def isMiss : Event → Bool
  | tooManyTypes _ _ | nothingSelected _ => true
  | _ => false

/-- The weight of an event. -/
def level (e : Event) : String := if e.isMiss then "TRACE" else "DEBUG"

/-- The message of an event. -/
def message : Event → String
  | nodeMade name superclass =>
    "[ClassCache] New class node '" ++ name ++ "' (superclass: "
      ++ Text.optional (superclass.map Text.quote) ++ ")"
  | typeRegistered name id => "[MetaTypeRegistry] Registered type '" ++ name ++ "' as " ++ id.text
  | aliasRegistered name id original =>
    "[MetaTypeRegistry] Registered alias '" ++ name ++ "' as " ++ id.text ++ " (type " ++ original.text ++ ")"
  | converterRegistered source target =>
    "[MetaTypeRegistry] Registered converter " ++ source.text ++ " -> " ++ target.text
  | classOptedIn name => "[MetaTypeRegistry] Class '" ++ name ++ "' opted into non-null default construction"
  | factoryRegistered id => "[FactoryRegistry] Registered factory for type " ++ id.text
  | functionAppended function => "[Dispatcher] Append " ++ function
  | functionRemoved count function => "[Dispatcher] Removed " ++ Decimal.writeNat count ++ " x " ++ function
  | tooManyTypes count arity =>
    "[Dispatcher] " ++ Decimal.writeNat count ++ " argument types for arity " ++ Decimal.writeNat arity
      ++ ", no match"
  | nothingSelected types =>
    "[Dispatcher] No function for " ++ Text.bracket (types.map Descriptor.recordText)

/-- The weight and the message. -/
def text (e : Event) : String := e.level ++ " " ++ e.message

end Event

end Multimethod
