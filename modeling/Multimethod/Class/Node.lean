/-
  Multimethod.Class.Node — classes as a running program knows them.
-/
import Multimethod.Class
import Multimethod.Table
import Multimethod.Text.Quoted

/-!
A class is not known before it is first asked for. Then it gets a node with a serial number and a link to
the node of its parent, which is made first. Nodes are compared by serial number alone; the cache holds the
one node of each class.
-/

namespace Multimethod

/-- The node of a class, linked to the node of its parent class. -/
inductive ClassNode where
  | root (serial : Nat) (decl : ClassDecl)
  | derived (serial : Nat) (decl : ClassDecl) (superclass : ClassNode)
  deriving DecidableEq, Repr

namespace ClassNode

/-- The number that tells the node from all others. -/
def serial : ClassNode → Nat
  | root s _ => s
  | derived s _ _ => s

/-- The declaration of the class. -/
def decl : ClassNode → ClassDecl
  | root _ c => c
  | derived _ c _ => c

/-- The node of the parent class. -/
def superclass? : ClassNode → Option ClassNode
  | root _ _ => none
  | derived _ _ n => some n

/-- The name of the class. -/
def name (n : ClassNode) : String := n.decl.name

/-- The node and the nodes it is linked to, up to the root. -/
def ancestors : ClassNode → List ClassNode
  | root s c => [root s c]
  | derived s c n => derived s c n :: n.ancestors

/-- Whether two nodes are one. -/
def same (n m : ClassNode) : Bool := n.serial == m.serial

/-- Whether `m` is the node itself or one that its links lead to. -/
def inherits (n m : ClassNode) : Bool := n.ancestors.any fun a => a.same m

/-- The node with the names of its class and of the parent. -/
def text (n : ClassNode) : String :=
  Text.record "ClassNode"
    [("name", Text.quote n.name), ("superclass", Text.optional (n.superclass?.map fun p => Text.quote p.name))]

@[simp] theorem same_refl (n : ClassNode) : n.same n = true := by simp [same]

theorem self_mem_ancestors (n : ClassNode) : n ∈ n.ancestors := by cases n <;> simp [ancestors]

@[simp] theorem inherits_refl (n : ClassNode) : n.inherits n = true :=
  List.any_eq_true.mpr ⟨n, self_mem_ancestors n, same_refl n⟩

end ClassNode

/-- The nodes that have been made, by class. -/
abbrev ClassCache := Table ClassDecl ClassNode

namespace ClassCache

/-- A node of class `c` with the next serial number, linked to `above`. -/
def fresh (cache : ClassCache) (c : ClassDecl) : Option ClassNode → ClassNode
  | none => .root cache.size c
  | some above => .derived cache.size c above

/-- The node of a class, made first if there is none, its parent's node before it; and the nodes made on
the way, in that order. -/
def node : ClassDecl → ClassCache → ClassNode × List ClassNode × ClassCache
  | .root l, cache =>
    match cache.find? (.root l) with
    | some n => (n, [], cache)
    | none =>
      let n := fresh cache (.root l) none
      (n, [n], cache.insert (.root l) n)
  | .derived l p, cache =>
    match cache.find? (.derived l p) with
    | some n => (n, [], cache)
    | none =>
      let (above, made, cache) := node p cache
      let n := fresh cache (.derived l p) (some above)
      (n, made ++ [n], cache.insert (.derived l p) n)

end ClassCache

end Multimethod
