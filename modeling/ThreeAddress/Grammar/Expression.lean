import ThreeAddress.Grammar.Reader
import ThreeAddress.Tree.Inline

/-!
# Expressions

```
expression  ::= term (("==" | "!=" | "<" | ">" | "<=" | ">=" | "+" | "-") term)*
term        ::= factor (("*" | "/") factor)*
factor      ::= INT | FLOAT | STRING | "(" expression ")" | IDENTIFIER
```

There are two tiers: `*` and `/` bind tighter than all other operators. Operators of one tier group
from the left. A binary node is placed at its operator, every other node at its first token; a
parenthesis leaves no trace.

The functions that call each other carry a budget. A call passes on one less than it got, and since
every round takes a token, four times the number of tokens is always enough.
-/

namespace ThreeAddress.Grammar

open Parse

/-- Whether a kind is an operator of the lower tier. -/
def isLowOperator : Kind → Bool
  | .equal | .notEqual | .less | .greater | .lessEqual | .greaterEqual | .plus | .minus => true
  | _ => false

/-- Whether a kind is an operator of the higher tier. -/
def isHighOperator : Kind → Bool
  | .times | .divide => true
  | _ => false

/-- Gives up for lack of budget. -/
def exhausted {α : Type} : Parse α := reject fun _ => .tooDeep

/-- An integer literal. It is read before the token is taken. -/
def intLiteral (t : Token) : Parse Node :=
  match Literal.readInt? t.text.toList with
  | some value => do
    let _ ← advance
    return .int value t.location
  | none => reject fun _ => .unreadableInteger t.text.length

/-- A float literal. -/
def floatLiteral (t : Token) : Parse Node := do
  let _ ← advance
  match Literal.readFloat? t.text.toList with
  | some value => return .float value t.location
  | none => fun r => .error ⟨.unreadableFloat t.text, t.location, quoteLine r.lines t.location⟩ r

/-- A factor, given how to read an expression in parentheses. -/
def factor (expression : Parse Node) : Parse Node := do
  let t := (← get).current
  match t.kind with
  | .intLiteral => intLiteral t
  | .floatLiteral => floatLiteral t
  | .stringLiteral => do
    let _ ← advance
    return .string t.text t.location
  | .identifier => do
    let _ ← advance
    return .var t.text t.location
  | .leftParen => do
    let _ ← advance
    let inner ← expression
    let _ ← expect .rightParen
    return inner
  | _ => reject fun r => .unexpectedToken r.current.describe "expression"

mutual

/-- An expression within a budget. -/
def expressionWithin : Nat → Parse Node
  | 0 => exhausted
  | n + 1 => do
    let left ← termWithin n
    moreTermsWithin n left

/-- The operators of the lower tier and the terms that follow a left operand. -/
def moreTermsWithin : Nat → Node → Parse Node
  | 0, _ => exhausted
  | n + 1, left => do
    if isLowOperator (← kind) then
      let op ← advance
      let right ← termWithin n
      moreTermsWithin n (.binary left (.ofSymbol op.text) right op.location)
    else return left

/-- A term within a budget. -/
def termWithin : Nat → Parse Node
  | 0 => exhausted
  | n + 1 => do
    let left ← factor (expressionWithin n)
    moreFactorsWithin n left

/-- The operators of the higher tier and the factors that follow a left operand. -/
def moreFactorsWithin : Nat → Node → Parse Node
  | 0, _ => exhausted
  | n + 1, left => do
    if isHighOperator (← kind) then
      let op ← advance
      let right ← factor (expressionWithin n)
      moreFactorsWithin n (.binary left (.ofSymbol op.text) right op.location)
    else return left

end

/-- An expression. -/
def expression : Parse Node := fun r => expressionWithin (4 * (r.size + 1)) r

end ThreeAddress.Grammar
