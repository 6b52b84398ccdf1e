import ThreeAddress.Notice

/-!
# Constant folding

Operations on literals are carried out ahead of time, from the leaves up.

* Two integers: the result is exact, and division rounds toward zero. Division by zero is a
  problem. A result that has no written form is not put in.
* Two floats: double precision, where a division by zero gives an infinity or no number.
* An integer and a float: the integer becomes a float first, also where the operator is then kept.
  An integer beyond the floats stays.
* Comparisons and unknown operators are kept.

Of the statements, only returned values, conditions of branches, and the bodies of branches and
loops are visited; a block is left as it is.
-/

namespace ThreeAddress.Folding

open Work

/-- The number of binary digits of an integer. -/
def bitCount (n : Int) : Nat := if n = 0 then 0 else n.natAbs.log2 + 1

/-- The float nearest to an integer, unless the integer is beyond the floats. -/
def promote? (n : Int) : Option Float :=
  let x := Float.ofInt n
  if x.isFinite then some x else none

/-- The result of an operation on integers; none where the operator is kept. -/
def intResult? (op : Operator) (a b : Int) : Option Int :=
  match op with
  | .add => some (a + b)
  | .sub => some (a - b)
  | .mul => some (a * b)
  | .div => some (a.tdiv b)
  | _ => none

/-- The result of an operation on floats; none where the operator is kept. -/
def floatResult? (op : Operator) (a b : Float) : Option Float :=
  match op with
  | .add => some (a + b)
  | .sub => some (a - b)
  | .mul => some (a * b)
  | .div => some (a / b)
  | _ => none

/-- Folds an operation on integers. The last argument is the operation as it is kept. -/
def ints (a : Int) (op : Operator) (b : Int) (location : Option Location) (kept : Node) :
    Work Node :=
  if op = .div ∧ b = 0 then throw (.problem ⟨.divisionByZero a b, location, none⟩)
  else
    match intResult? op a b with
    | none => return kept
    | some result =>
      if Literal.hasText result then do
        tell (.foldedInts a op b result)
        return .int result location
      else do
        tell (.resultTooLong op)
        return kept

/-- Folds an operation on floats. The last argument is the operation as it is kept. -/
def floats (a : Float) (op : Operator) (b : Float) (location : Option Location) (kept : Node) :
    Work Node :=
  match floatResult? op a b with
  | none => return kept
  | some result => do
    tell (.foldedFloats a op b result)
    return .float result location

/-- Folds an operation on folded operands. -/
def operation (left : Node) (op : Operator) (right : Node) (location : Option Location) :
    Work Node :=
  match left, right with
  | .int a _, .int b _ => ints a op b location (.binary left op right location)
  | .float a _, .float b _ => floats a op b location (.binary left op right location)
  | .int a place, .float b _ =>
    match promote? a with
    | some x => floats x op b location (.binary (.float x place) op right location)
    | none => do
      tell (.beyondFloats (bitCount a))
      return .binary left op right location
  | .float a _, .int b place =>
    match promote? b with
    | some x => floats a op x location (.binary left op (.float x place) location)
    | none => do
      tell (.beyondFloats (bitCount b))
      return .binary left op right location
  | _, _ => return .binary left op right location

/-- Folds a tree. -/
def fold : Node → Work Node
  | .binary left op right location => do
    let left ← fold left
    let right ← fold right
    operation left op right location
  | .ifThen condition thenBranch location => do
    let condition ← fold condition
    let thenBranch ← fold thenBranch
    return .ifThen condition thenBranch location
  | .ifElse condition thenBranch elseBranch location => do
    let condition ← fold condition
    let thenBranch ← fold thenBranch
    let elseBranch ← fold elseBranch
    return .ifElse condition thenBranch elseBranch location
  | .forLoop init condition update body location => do
    let body ← fold body
    return .forLoop init condition update body location
  | .whileLoop condition body location => do
    let body ← fold body
    return .whileLoop condition body location
  | .retValue value location => do
    let value ← fold value
    return .retValue value location
  | .bare location => throw (.unsupported .folding (Node.bare location).kindName)
  | n => return n

/-- Folds some trees in order. -/
def foldAll : List Node → Work (List Node)
  | [] => return []
  | s :: ss => do
    let first ← fold s
    let more ← foldAll ss
    return first :: more

end ThreeAddress.Folding
