import ThreeAddress.Stack.Basic
import ThreeAddress.Typing

/-!
# Checking on a limited stack

The check in a given room for calls. A node in the place of a statement takes two calls, one to tell
its kind and one for the kind; a condition takes one. The type of an operation takes two calls, and
that of any other expression one, so a chain of operators takes two for each operator.
-/

namespace ThreeAddress.Typing.OnStack

/-- Makes some calls. -/
def call {α : Type} (calls room : Nat) (next : Nat → Check α) : Check α :=
  Stack.enter (throw .exhausted) calls room next

/-- The type of an expression under the variables declared so far, in the given room. -/
def typed (lines : List String) : Nat → Node → Check Ty
  | room, .binary left op right location => call 2 room fun room => do
    let leftType ← typed lines room left
    let rightType ← typed lines room right
    match operationType op leftType rightType with
    | .ok type => return type
    | .error cause => fail (problemAt lines location cause)
  | room, n => call 1 room fun _ => Typing.typed lines n

/-- Checks the condition of a construct, in the given room. -/
def condition (lines : List String) (construct : String) (room : Nat) (n : Node) : Check Unit :=
  call 1 room fun room => do
    let type ← typed lines room n
    if type.isNumeric then return ()
    else fail (problemAt lines n.location (.conditionNotNumeric construct type.name))

mutual

/-- Checks a node in the place of a statement, in the given room. -/
def check (lines : List String) : Nat → Node → Check Unit
  | room, .assign name value declares location => call 2 room fun room => do
    let valueType ← typed lines room value
    match declares with
    | some type => declare lines name type location
    | none => pure ()
    assign lines name valueType location
  | room, .binary left op right location => call 2 room fun room => do
    let _ ← typed lines room (.binary left op right location)
  | room, .var name location => call 2 room fun room => do
    let _ ← typed lines room (.var name location)
  | room, .ifThen test thenBranch _ => call 2 room fun room => do
    condition lines "if statement" room test
    check lines room thenBranch
  | room, .ifElse test thenBranch elseBranch _ => call 2 room fun room => do
    condition lines "if statement" room test
    check lines room thenBranch
    check lines room elseBranch
  | room, .forLoop init test update body _ => call 2 room fun room => do
    check lines room init
    condition lines "for loop" room test
    check lines room update
    check lines room body
  | room, .whileLoop test body _ => call 2 room fun room => do
    condition lines "while statement" room test
    check lines room body
  | room, .retValue value location => call 2 room fun room => do
    let type ← typed lines room value
    if type = .unknown then fail (problemAt lines location .untypedResult)
  | room, .block statements _ => call 2 room fun room => checkAll lines room statements
  | room, n => call 2 room fun _ => Typing.check lines n

/-- Checks statements in order, each in the given room. -/
def checkAll (lines : List String) : Nat → List Node → Check Unit
  | _, [] => pure ()
  | room, s :: ss => do
    check lines room s
    checkAll lines room ss

end

end ThreeAddress.Typing.OnStack

namespace ThreeAddress.Typing

/-- Checks statements in order on a stack. -/
def checkAllOn (stack : Stack) (lines : List String) (statements : List Node) : Check Unit :=
  match stack with
  | none => checkAll lines statements
  | some room => OnStack.checkAll lines room statements

end ThreeAddress.Typing
