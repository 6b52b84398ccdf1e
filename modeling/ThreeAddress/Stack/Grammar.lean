import ThreeAddress.Grammar.Session
import ThreeAddress.Stack.Basic

/-!
# Reading on a limited stack

The grammar in a given room for calls. Each rule is one call. So a pair of parentheses takes three,
for an expression, a term and a factor; the block of a branch or a loop takes three, and a block in
a block two. The operators of an expression and the statements of a block are read one after the
other, and each in the room that the first one had.
-/

namespace ThreeAddress.Grammar

open Parse

namespace OnStack

/-- Calls a rule of the grammar. -/
def call {α : Type} (room : Nat) (rule : Nat → Parse α) : Parse α :=
  Stack.enter exhausted 1 room rule

mutual

/-- An expression within a budget, in the given room. -/
def expressionWithin : Nat → Nat → Parse Node
  | 0, _ => exhausted
  | n + 1, room => call room fun room => do
    let left ← termWithin n room
    moreTermsWithin n room left

/-- The operators of the lower tier and the terms that follow a left operand. -/
def moreTermsWithin : Nat → Nat → Node → Parse Node
  | 0, _, _ => exhausted
  | n + 1, room, left => do
    if isLowOperator (← kind) then
      let op ← advance
      let right ← termWithin n room
      moreTermsWithin n room (.binary left (.ofSymbol op.text) right op.location)
    else return left

/-- A term within a budget, in the given room. -/
def termWithin : Nat → Nat → Parse Node
  | 0, _ => exhausted
  | n + 1, room => call room fun room => do
    let left ← call room fun room => factor (expressionWithin n room)
    moreFactorsWithin n room left

/-- The operators of the higher tier and the factors that follow a left operand. -/
def moreFactorsWithin : Nat → Nat → Node → Parse Node
  | 0, _, _ => exhausted
  | n + 1, room, left => do
    if isHighOperator (← kind) then
      let op ← advance
      let right ← call room fun room => factor (expressionWithin n room)
      moreFactorsWithin n room (.binary left (.ofSymbol op.text) right op.location)
    else return left

end

/-- An expression in the given room. -/
def expression (room : Nat) : Parse Node := fun r => expressionWithin (4 * (r.size + 1)) room r

/-- An assignment in the given room. -/
def assignment (room : Nat) (closed : Bool) : Parse Node :=
  call room fun room => Grammar.assignment (expression room) closed

mutual

/-- A statement within a budget, in the given room. -/
def statementWithin : Nat → Nat → Parse Node
  | 0, _ => exhausted
  | n + 1, room => call room fun room => do
    match ← kind with
    | .ifWord => call room fun room => branch (expression room) (blockWithin n room)
    | .forWord =>
      call room fun room => forLoop (expression room) (assignment room) (blockWithin n room)
    | .whileWord => call room fun room => whileLoop (expression room) (blockWithin n room)
    | .returnWord => call room fun room => returnStatement (expression room)
    | .leftBrace => blockWithin n room
    | _ => assignment room true

/-- A block within a budget, in the given room. -/
def blockWithin : Nat → Nat → Parse Node
  | 0, _ => exhausted
  | n + 1, room => call room fun room => braces (statementsWithin n room .rightBrace)

/-- The statements up to a token of the given kind, within a budget and in the given room. -/
def statementsWithin : Nat → Nat → Kind → Parse (List Node)
  | 0, _, _ => exhausted
  | n + 1, room, stop => do
    if (← kind) = stop then return []
    else
      let first ← statementWithin n room
      let more ← statementsWithin n room stop
      return first :: more

end

/-- A program in the given room. -/
def program (room : Nat) : Parse (List Node) := fun r =>
  statementsWithin (4 * (r.size + 1)) room .endOfInput r

end OnStack

/-- A program read on a stack. -/
def programOn : Stack → Parse (List Node)
  | none => program
  | some room => OnStack.program room

end ThreeAddress.Grammar
