import ThreeAddress.Grammar.Reader
import ThreeAddress.Notice

/-!
# Typing

The check of declarations and types. There is one table of variables for the whole program; a
declaration takes effect from its place on, in the order in which the check walks the tree: the
value of an assignment before its target, and in the head of a loop the start, the condition and
the step before the body.

* An assignment with a type declares a variable that is not declared yet.
* A variable is read or set only after its declaration.
* A value has the type of its target, except that an integer can go into a float variable; this is
  told in a notice.
* An operator takes two numbers. The result is a float if one of them is.
* A condition is a number.
* A value that is returned has a known type.

After a problem the table keeps what was declared up to there.
-/

namespace ThreeAddress

/-! ## Tables of variables -/

/-- Variables with their types, in the order of their first declaration. -/
structure Symbols where
  entries : List (String × Ty) := []
  deriving DecidableEq, Repr

namespace Symbols

/-- The type of a variable. -/
def find? (s : Symbols) (name : String) : Option Ty := s.entries.lookup name

/-- Gives a variable a type in a list of entries: in its place if it has one, and else at the
end. -/
def setEntry (name : String) (type : Ty) : List (String × Ty) → List (String × Ty)
  | [] => [(name, type)]
  | (n, t) :: rest => if n = name then (name, type) :: rest else (n, t) :: setEntry name type rest

/-- The table in which a variable has the given type. -/
def set (s : Symbols) (name : String) (type : Ty) : Symbols := ⟨setEntry name type s.entries⟩

end Symbols

/-! ## Expressions -/

/-- The type of a node that is no expression. -/
def Ty.unknown : Ty := .other "unknown"

/-- Whether a type is one of numbers. -/
def Ty.isNumeric : Ty → Bool
  | .int | .float => true
  | _ => false

namespace Typing

/-- A problem at a node. -/
def problemAt (lines : List String) (location : Option Location) (cause : Cause) : Problem :=
  ⟨cause, location, quoteLine lines location⟩

/-- The type of an operation, from the types of its operands. -/
def operationType (op : Operator) (left right : Ty) : Except Cause Ty :=
  if left ≠ right && !(left.isNumeric && right.isNumeric) then
    .error (.operandMismatch left.name op.symbol right.name)
  else if left = .int && right = .int then .ok .int
  else if left.isNumeric && right.isNumeric then .ok .float
  else .error (.operandsNotNumeric left.name op.symbol right.name)

/-- The type of an expression under a table of variables. Operands are typed from left to right. A
node that is no expression has the type `unknown`. -/
def typeOf (lines : List String) (symbols : Symbols) : Node → Except Problem Ty
  | .int .. => .ok .int
  | .float .. => .ok .float
  | .string .. => .ok .string
  | .var name location =>
    match symbols.find? name with
    | some type => .ok type
    | none => .error (problemAt lines location (.undeclared name))
  | .binary left op right location => do
    let leftType ← typeOf lines symbols left
    let rightType ← typeOf lines symbols right
    (operationType op leftType rightType).mapError (problemAt lines location)
  | _ => .ok .unknown

/-! ## Statements -/

/-- The state of a check: the variables declared so far, and the notices. -/
structure State where
  symbols : Symbols := {}
  notices : List Notice := []

/-- A step of a check. -/
abbrev Check := EStateM Failure State

/-- Ends the check with a problem. -/
def fail {α : Type} (p : Problem) : Check α := throw (.problem p)

/-- The type of an expression under the variables declared so far. -/
def typed (lines : List String) (n : Node) : Check Ty := do
  match typeOf lines (← get).symbols n with
  | .ok type => return type
  | .error p => fail p

/-- Declares a variable. -/
def declare (lines : List String) (name : String) (type : Ty) (location : Option Location) :
    Check Unit := do
  let state ← get
  match state.symbols.find? name with
  | some present => fail (problemAt lines location (.redeclared name present.name))
  | none => set { state with symbols := state.symbols.set name type }

/-- Whether a value of the second type can go into a variable of the first. -/
def accepts (target value : Ty) : Bool := target = value || (target = .float && value = .int)

/-- Checks an assignment of a typed value to a variable. -/
def assign (lines : List String) (name : String) (value : Ty) (location : Option Location) :
    Check Unit := do
  match (← get).symbols.find? name with
  | none => fail (problemAt lines location (.undeclared name))
  | some target =>
    if target = .float && value = .int then
      modify fun state => { state with notices := state.notices ++ [.widened name] }
    else if target = value then return ()
    else fail (problemAt lines location (.assignmentMismatch name target.name value.name))

/-- Checks the condition of a construct. A problem is placed at the condition. -/
def condition (lines : List String) (construct : String) (n : Node) : Check Unit := do
  let type ← typed lines n
  if type.isNumeric then return ()
  else fail (problemAt lines n.location (.conditionNotNumeric construct type.name))

mutual

/-- Checks a node in the place of a statement. -/
def check (lines : List String) : Node → Check Unit
  | .assign name value declares location => do
    let valueType ← typed lines value
    match declares with
    | some type => declare lines name type location
    | none => pure ()
    assign lines name valueType location
  | .binary left op right location => do
    let _ ← typed lines (.binary left op right location)
  | .var name location => do
    let _ ← typed lines (.var name location)
  | .int .. | .float .. | .string .. => pure ()
  | .ifThen test thenBranch _ => do
    condition lines "if statement" test
    check lines thenBranch
  | .ifElse test thenBranch elseBranch _ => do
    condition lines "if statement" test
    check lines thenBranch
    check lines elseBranch
  | .forLoop init test update body _ => do
    check lines init
    condition lines "for loop" test
    check lines update
    check lines body
  | .whileLoop test body _ => do
    condition lines "while statement" test
    check lines body
  | .ret _ => pure ()
  | .retValue value location => do
    let type ← typed lines value
    if type = .unknown then fail (problemAt lines location .untypedResult)
  | .block statements _ => checkAll lines statements
  | .bare location => throw (.unsupported .typing (Node.bare location).kindName)

/-- Checks statements in order. -/
def checkAll (lines : List String) : List Node → Check Unit
  | [] => pure ()
  | s :: ss => do
    check lines s
    checkAll lines ss

end

/-- Runs a step of a check. -/
def run {α : Type} (step : Check α) (state : State) : Except Failure α × State :=
  match step state with
  | .ok a state => (.ok a, state)
  | .error e state => (.error e, state)

end Typing

end ThreeAddress
