import ThreeAddress.Folding
import ThreeAddress.Stack.Basic

/-!
# Folding on a limited stack

Folding in a given room for calls. Every node that is visited takes two, one to tell its kind and
one for the kind.
-/

namespace ThreeAddress.Folding

namespace OnStack

/-- Visits a node. -/
def visit {α : Type} (room : Nat) (next : Nat → Work α) : Work α :=
  Stack.enter (throw .exhausted) 2 room next

/-- Folds a tree in the given room. -/
def fold : Nat → Node → Work Node
  | room, .binary left op right location => visit room fun room => do
    let left ← fold room left
    let right ← fold room right
    operation left op right location
  | room, .ifThen condition thenBranch location => visit room fun room => do
    let condition ← fold room condition
    let thenBranch ← fold room thenBranch
    return .ifThen condition thenBranch location
  | room, .ifElse condition thenBranch elseBranch location => visit room fun room => do
    let condition ← fold room condition
    let thenBranch ← fold room thenBranch
    let elseBranch ← fold room elseBranch
    return .ifElse condition thenBranch elseBranch location
  | room, .forLoop init condition update body location => visit room fun room => do
    let body ← fold room body
    return .forLoop init condition update body location
  | room, .whileLoop condition body location => visit room fun room => do
    let body ← fold room body
    return .whileLoop condition body location
  | room, .retValue value location => visit room fun room => do
    let value ← fold room value
    return .retValue value location
  | room, n => visit room fun _ => Folding.fold n

/-- Folds some trees in order, each in the given room. -/
def foldAll : Nat → List Node → Work (List Node)
  | _, [] => return []
  | room, s :: ss => do
    let first ← fold room s
    let more ← foldAll room ss
    return first :: more

end OnStack

/-- Folds some trees in order on a stack. -/
def foldAllOn (stack : Stack) (statements : List Node) : Work (List Node) :=
  match stack with
  | none => foldAll statements
  | some room => OnStack.foldAll room statements

end ThreeAddress.Folding
