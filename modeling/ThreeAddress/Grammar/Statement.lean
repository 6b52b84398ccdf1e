import ThreeAddress.Grammar.Expression

/-!
# Statements and programs

```
program     ::= statement*
statement   ::= if | for | while | return | block | assignment
assignment  ::= type? IDENTIFIER "=" expression ";"
block       ::= "{" statement* "}"
if          ::= "if" "(" expression ")" block ("else" block)?
for         ::= "for" "(" assignment expression ";" update ")" block
update      ::= type? IDENTIFIER "=" expression
while       ::= "while" "(" expression ")" block
return      ::= "return" expression? ";"
```

A statement is placed at its first token. An assignment without an expression is told apart from
one whose expression starts wrongly. The rule for each kind of statement is given how to read its
parts.
-/

namespace ThreeAddress.Grammar

open Parse

/-- Whether an assignment may end at a token of this kind: at a semicolon, and in the head of a
loop at a closing parenthesis. -/
def endsAssignment (closed : Bool) : Kind → Bool
  | .semicolon | .endOfInput => true
  | .rightParen => !closed
  | _ => false

/-- The type before the name of an assignment. -/
def declaredType : Parse (Option Ty) := do
  if (← kind).isType then
    let t ← advance
    return some (.ofName t.text)
  else return none

/-- An assignment, `closed` by a semicolon or not. -/
def assignment (expression : Parse Node) (closed : Bool) : Parse Node := do
  let location ← here
  let declares ← declaredType
  let name ← expect .identifier
  let _ ← expect .assign
  if endsAssignment closed (← kind) then
    reject fun r => .missingExpression r.current.describe
  else
    let value ← expression
    if closed then
      let _ ← expect .semicolon
    return .assign name.text value declares location

/-- The condition of a branch or a loop, in parentheses. -/
def condition (expression : Parse Node) : Parse Node := do
  let _ ← expect .leftParen
  let value ← expression
  let _ ← expect .rightParen
  return value

/-- A branch. -/
def branch (expression block : Parse Node) : Parse Node := do
  let location ← here
  let _ ← expect .ifWord
  let test ← condition expression
  let thenBlock ← block
  if (← kind) = .elseWord then
    let _ ← advance
    let elseBlock ← block
    return .ifElse test thenBlock elseBlock location
  else return .ifThen test thenBlock location

/-- A counting loop. -/
def forLoop (expression : Parse Node) (assignment : Bool → Parse Node) (block : Parse Node) :
    Parse Node := do
  let location ← here
  let _ ← expect .forWord
  let _ ← expect .leftParen
  let init ← assignment true
  let test ← expression
  let _ ← expect .semicolon
  let update ← assignment false
  let _ ← expect .rightParen
  let body ← block
  return .forLoop init test update body location

/-- A conditional loop. -/
def whileLoop (expression block : Parse Node) : Parse Node := do
  let location ← here
  let _ ← expect .whileWord
  let test ← condition expression
  let body ← block
  return .whileLoop test body location

/-- A return, with a value or without one. -/
def returnStatement (expression : Parse Node) : Parse Node := do
  let location ← here
  let _ ← expect .returnWord
  if (← kind) = .semicolon then
    let _ ← expect .semicolon
    return .ret location
  else
    let value ← expression
    let _ ← expect .semicolon
    return .retValue value location

/-- A block. -/
def braces (statements : Parse (List Node)) : Parse Node := do
  let location ← here
  let _ ← expect .leftBrace
  let statements ← statements
  let _ ← expect .rightBrace
  return .block statements location

mutual

/-- A statement within a budget. -/
def statementWithin : Nat → Parse Node
  | 0 => exhausted
  | n + 1 => do
    match ← kind with
    | .ifWord => branch expression (blockWithin n)
    | .forWord => forLoop expression (assignment expression) (blockWithin n)
    | .whileWord => whileLoop expression (blockWithin n)
    | .returnWord => returnStatement expression
    | .leftBrace => blockWithin n
    | _ => assignment expression true

/-- A block within a budget. -/
def blockWithin : Nat → Parse Node
  | 0 => exhausted
  | n + 1 => braces (statementsWithin n .rightBrace)

/-- The statements up to a token of the given kind, within a budget. -/
def statementsWithin : Nat → Kind → Parse (List Node)
  | 0, _ => exhausted
  | n + 1, stop => do
    if (← kind) = stop then return []
    else
      let first ← statementWithin n
      let more ← statementsWithin n stop
      return first :: more

end

/-- A program: statements up to the end of input. -/
def program : Parse (List Node) := fun r =>
  statementsWithin (4 * (r.size + 1)) .endOfInput r

/-- The outcome of a parsing step, and the reader after it. -/
def run {α : Type} (step : Parse α) (r : Reader) : Except Problem α × Reader :=
  match step r with
  | .ok a rest => (.ok a, rest)
  | .error p rest => (.error p, rest)

/-- What a parsing step reads from a list of tokens. -/
def ofTokensBy (step : Parse (List Node)) (tokens : List Token) (lines : List String) :
    Except Problem (List Node) := do
  let r ← Reader.ofSupply ⟨tokens, none⟩ lines
  (run step r).1

/-- The program that a list of tokens is. -/
def ofTokens (tokens : List Token) (lines : List String) : Except Problem (List Node) :=
  ofTokensBy program tokens lines

end ThreeAddress.Grammar
