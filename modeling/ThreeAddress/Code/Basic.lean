import ThreeAddress.Tree.Inline

/-!
# Three-address code

Instructions with at most one operator and at most two operands. Temporaries and labels are
numbered; variables keep their names.

| Text                  | Meaning                                  |
|-----------------------|------------------------------------------|
| `t0 = a + b`          | an operation into a temporary            |
| `x = t0`              | a copy into a variable                   |
| `ifFalse t0 goto L0`  | a jump if the operand is zero            |
| `goto L1`             | a jump                                   |
| `L0:`                 | a label                                  |
| `return t0`, `return` | the end, with a value or without one     |
-/

namespace ThreeAddress

/-- What an instruction works on. -/
inductive Operand where
  | temp (number : Nat)
  | var (name : String)
  | int (value : Int)
  | float (value : Float)
  | string (value : String)

/-- The name of a temporary. -/
def tempName (number : Nat) : String := "t" ++ toString number

/-- The name of a label. -/
def labelName (number : Nat) : String := "L" ++ toString number

/-- The text of an operand. Literals are written as in a program. -/
def Operand.text : Operand → String
  | temp number => tempName number
  | var name => name
  | int value => Literal.intText value
  | float value => Literal.floatText value
  | string value => Literal.stringText value

/-- The instructions. -/
inductive Instruction where
  | binary (target : Nat) (left : Operand) (op : Operator) (right : Operand)
  | copy (name : String) (value : Operand)
  | jumpUnless (condition : Operand) (number : Nat)
  | jump (number : Nat)
  | label (number : Nat)
  | ret
  | retValue (value : Operand)

/-- The line of an instruction. -/
def Instruction.text : Instruction → String
  | binary target left op right =>
    tempName target ++ " = " ++ left.text ++ " " ++ op.symbol ++ " " ++ right.text
  | copy name value => name ++ " = " ++ value.text
  | jumpUnless condition number => "ifFalse " ++ condition.text ++ " goto " ++ labelName number
  | jump number => "goto " ++ labelName number
  | label number => labelName number ++ ":"
  | ret => "return"
  | retValue value => "return " ++ value.text

/-- The text of a file of lines: each line ends in a newline, and an empty file has one. -/
def fileText (lines : List String) : String := "\n".intercalate lines ++ "\n"

end ThreeAddress
