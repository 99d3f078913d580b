/-
  Multimethod.Function — functions of a fixed number of parameters, with their types.
-/
import Multimethod.Evaluation

/-!
A callable takes values of its parameter types and is a script; a function takes boxes. In between, each
box is read as its parameter's type, and a value that cannot be read is the default one. Functions are
compared by their types alone.
-/

namespace Multimethod

/-- The types of `n` parameters and of the result. -/
structure Signature (n : Nat) where
  params : List Ty
  result : Ty
  arity : params.length = n

/-- Behaviour on values of its parameter types. -/
structure Callable (n : Nat) where
  signature : Signature n
  body : List Value → Script

namespace Signature

/-- Reads one value from each box, by the parameter types, and goes on with the values. -/
def readAll : List Ty → List Box → (List Value → Script) → Script
  | t :: ts, b :: bs, k => Script.readOr b t fun v => readAll ts bs fun vs => k (v :: vs)
  | _, _, k => k []

/-- The descriptions of the parameter types, in order, and then of the result type. -/
def describe {n : Nat} (s : Signature n) : Step (List Descriptor × Descriptor) := do
  let params ← s.params.mapM Step.descriptorOf
  let result ← Step.descriptorOf s.result
  return (params, result)

end Signature

/-- A function of `n` parameters. What it does gets exactly `n` boxes; it may be missing. -/
structure Function (n : Nat) where
  body : Option (List Box → Script)
  params : List Descriptor
  result : Descriptor

namespace Function

variable {n : Nat}

/-- The greatest number of parameters that programs use. -/
def maxArity : Nat := 5

/-- The function without behaviour and without parameter types. -/
def null : Function n := ⟨none, [], Descriptor.wild⟩

/-- The function of a callable, under the callable's own types. -/
def ofCallable (c : Callable n) : Step (Function n) := do
  let (params, result) ← c.signature.describe
  return ⟨some fun args => Signature.readAll c.signature.params args c.body, params, result⟩

/-- The function of a callable, under the types of another signature. -/
def withSignature (s : Signature n) (c : Callable n) : Step (Function n) := do
  let (params, result) ← s.describe
  return ⟨some fun args => Signature.readAll c.signature.params args c.body, params, result⟩

/-- The function without behaviour under a signature. -/
def ofSignature (s : Signature n) : Step (Function n) := do
  let (params, result) ← s.describe
  return ⟨none, params, result⟩

/-- Exactly `n` elements of a list: cut off, or filled up. -/
def resize {α : Type} (filler : α) : Nat → List α → List α
  | 0, _ => []
  | n + 1, [] => filler :: resize filler n []
  | n + 1, x :: rest => x :: resize filler n rest

theorem mem_resize {α : Type} {filler x : α} {n : Nat} {l : List α} (h : x ∈ resize filler n l) :
    x ∈ l ∨ x = filler := by
  induction n generalizing l with
  | zero => cases h
  | succ n ih =>
    cases l with
    | nil =>
      rcases List.mem_cons.mp h with rfl | h
      · exact .inr rfl
      · exact ih h
    | cons y l =>
      rcases List.mem_cons.mp h with rfl | h
      · exact .inl (List.mem_cons_self ..)
      · exact (ih h).imp_left (List.mem_cons_of_mem _)

/-- The function of some behaviour on boxes, its parameter types cut off or filled up with any type. -/
def ofParts (params : List Descriptor) (result : Descriptor) (body : List Box → Script) : Function n :=
  ⟨some body, resize Descriptor.wild n params, result⟩

/-- Whether there is behaviour. -/
def isValid (f : Function n) : Bool := f.body.isSome

/-- Whether there is none. -/
def isNull (f : Function n) : Bool := f.body.isNone

/-- Whether two functions have the same parameter and result types. -/
def sameTypes (f g : Function n) : Bool := Descriptor.sameList f.params g.params && f.result.same g.result

/-- The types of a function. -/
def text (f : Function n) : String :=
  "Function<" ++ Decimal.writeNat n ++ ">(" ++ ", ".intercalate (f.params.map Descriptor.text) ++ ") -> "
    ++ f.result.text ++ (if f.isNull then " [null]" else "")

/-- Calls a function. Missing arguments are boxes with nothing in them, further ones are ignored; without
behaviour the result is nothing. -/
def call (f : Function n) (args : List Box) : Run Box := do
  match f.body with
  | none => return .null
  | some body =>
    match ← Run.follow (body (resize .null n args)) with
    | some v => Step.box v
    | none => return .null

end Function

end Multimethod
