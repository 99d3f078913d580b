/-
  Multimethod.Dispatcher — lists of functions from which argument types select.
-/
import Multimethod.Function

/-!
A dispatcher keeps functions of one arity in the order in which they were appended. Argument types select
the functions that accept them, exactly or by conversion; "one" calls take the last function selected, so
that later functions shadow earlier ones, "all" calls take all in order.
-/

namespace Multimethod

/-- Functions of arity `n`, the first appended first. -/
structure Dispatcher (n : Nat) where
  functions : List (Function n)

namespace Dispatcher

variable {n : Nat}

/-- The dispatcher without functions. -/
def empty : Dispatcher n := ⟨[]⟩

/-- Whether its functions have parameters. -/
def isValid (_ : Dispatcher n) : Bool := n != 0

/-- Number of functions. -/
def size (d : Dispatcher n) : Nat := d.functions.length

/-- The dispatcher with its functions as text. -/
def text (d : Dispatcher n) : String :=
  Text.record "Dispatcher"
    [("arity", Decimal.writeNat n), ("functions", Text.bracket (d.functions.map Function.text))]

/-! ## Changes -/

/-- The dispatcher with a further function at the end. -/
def push (d : Dispatcher n) (f : Function n) : Dispatcher n := ⟨d.functions ++ [f]⟩

/-- The dispatcher without the functions of the same types as `f`. -/
def without (d : Dispatcher n) (f : Function n) : Dispatcher n :=
  ⟨d.functions.filter fun g => !g.sameTypes f⟩

/-- Appends a function. -/
def append (d : Dispatcher n) (f : Function n) : Step (Dispatcher n) := do
  Step.note (.functionAppended f.text)
  return d.push f

/-- Appends functions in order. -/
def extend (d : Dispatcher n) : List (Function n) → Step (Dispatcher n)
  | [] => return d
  | f :: rest => do (← d.append f).extend rest

/-- Appends a callable under its own types. -/
def appendCallable (d : Dispatcher n) (c : Callable n) : Step (Dispatcher n) := do
  d.append (← Function.ofCallable c)

/-- Appends a callable under the types of another signature. -/
def appendAs (d : Dispatcher n) (s : Signature n) (c : Callable n) : Step (Dispatcher n) := do
  d.append (← Function.withSignature s c)

/-- Removes the functions of the same types as `f`; tells how many there were. -/
def remove (d : Dispatcher n) (f : Function n) : Step (Dispatcher n × Nat) := do
  let rest := d.without f
  let removed := d.size - rest.size
  if 0 < removed then Step.note (.functionRemoved removed f.text)
  return (rest, removed)

/-- Removes the functions of the types of a signature. -/
def removeAs (d : Dispatcher n) (s : Signature n) : Step (Dispatcher n × Nat) := do
  d.remove (← Function.ofSignature s)

/-- Removes the functions of the same types as one of a list; tells how many there were. -/
def removeAll (d : Dispatcher n) : List (Function n) → Step (Dispatcher n × Nat)
  | [] => return (d, 0)
  | f :: rest => do
    let (d, removed) ← d.remove f
    let (d, others) ← d.removeAll rest
    return (d, removed + others)

/-- The dispatcher without its functions. -/
def clear (_ : Dispatcher n) : Dispatcher n := empty

/-! ## Selection -/

/-- Types beyond the arity select nothing. -/
def refuse (types : List Descriptor) : Step (List (Function n)) := do
  Step.note (.tooManyTypes types.length n)
  return []

/-- Records a selection of nothing. -/
def report (types : List Descriptor) (found : List (Function n)) : Step (List (Function n)) := do
  if found.isEmpty then Step.note (.nothingSelected types)
  return found

/-- The functions whose parameter types are exactly the argument types. -/
def exactly (d : Dispatcher n) (types : List Descriptor) : Step (List (Function n)) :=
  if n < types.length then refuse types
  else report types (d.functions.filter fun f => Descriptor.allExactly types f.params)

/-- The functions to whose parameter types the argument types convert. -/
def convertible (d : Dispatcher n) (types : List Descriptor) : Run (List (Function n)) := do
  if n < types.length then refuse types
  else report types (← Run.select (fun f => Run.allConvertible types f.params) d.functions)

/-- `convertible` on the types of the arguments. -/
def convertibleArgs (d : Dispatcher n) (args : List Box) : Run (List (Function n)) := do
  d.convertible (← Step.typesOf args)

/-- `exactly` on the types of the arguments. -/
def exactlyArgs (d : Dispatcher n) (args : List Box) : Step (List (Function n)) := do
  d.exactly (← Step.typesOf args)

/-! ## Calls -/

/-- Calls the last of the functions; nothing if there is none. -/
def callLast (found : List (Function n)) (args : List Box) : Run Box :=
  match found.getLast? with
  | some f => f.call args
  | none => return .null

/-- Calls the last function that accepts the arguments by conversion. -/
def callOneConvertible (d : Dispatcher n) (args : List Box) : Run Box := do
  callLast (← d.convertibleArgs args) args

/-- Calls the last function that exactly accepts the arguments. -/
def callOneExact (d : Dispatcher n) (args : List Box) : Run Box := do
  callLast (← d.exactlyArgs args) args

/-- Calls all functions that accept the arguments by conversion, in order. -/
def callAllConvertible (d : Dispatcher n) (args : List Box) : Run (List Box) := do
  (← d.convertibleArgs args).mapM fun f => f.call args

/-- Calls all functions that exactly accept the arguments, in order. -/
def callAllExact (d : Dispatcher n) (args : List Box) : Run (List Box) := do
  (← d.exactlyArgs args).mapM fun f => f.call args

/-- A call without further choice is one of the last exact function. -/
def call (d : Dispatcher n) (args : List Box) : Run Box := d.callOneExact args

end Dispatcher

end Multimethod
