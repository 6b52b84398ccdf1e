import ThreeAddress.Code.Basic
import ThreeAddress.Problem

/-!
# Lowering

Trees to three-address code. Each operation gets the next temporary, after those of its operands,
the left one first. The layout of branches and loops:

```
if (c) A             if (c) A else B      while (c) A          for (init; c; step) A

    c                    c                L1:                      init
    ifFalse c goto L1    ifFalse c goto L1    c                L1:
    A                    A                    ifFalse c goto L2    c
L1:                      goto L2              A                    ifFalse c goto L2
                     L1:                      goto L1              A
                         B                L2:                      step
                     L2:                                           goto L1
                                                               L2:
```

The label of the else part is taken before the branches are lowered and the label behind them after
the first branch; a loop takes both labels first. Numbering starts at zero for each tree that is
generated.
-/

namespace ThreeAddress.Lowering

/-- The numbers of the next temporary and the next label. -/
structure Counters where
  temps : Nat := 0
  labels : Nat := 0
  deriving DecidableEq, Repr

/-- A step of lowering. -/
abbrev Lower := StateT Counters (Except Failure)

/-- Takes the next temporary. -/
def newTemp : Lower Nat := do
  let counters ← get
  set { counters with temps := counters.temps + 1 }
  return counters.temps

/-- Takes the next label. -/
def newLabel : Lower Nat := do
  let counters ← get
  set { counters with labels := counters.labels + 1 }
  return counters.labels

/-- The code of an expression, and the operand that holds its value. -/
def expression : Node → Lower (List Instruction × Operand)
  | .int value _ => return ([], .int value)
  | .float value _ => return ([], .float value)
  | .string value _ => return ([], .string value)
  | .var name _ => return ([], .var name)
  | .binary left op right _ => do
    let (leftCode, leftOperand) ← expression left
    let (rightCode, rightOperand) ← expression right
    let target ← newTemp
    return (leftCode ++ rightCode ++ [.binary target leftOperand op rightOperand], .temp target)
  | n => throw (.unsupported .lowering n.kindName)

mutual

/-- The code of a node in the place of a statement. Of an expression there is only the code that
computes it. -/
def statement : Node → Lower (List Instruction)
  | .assign name value _ _ => do
    let (code, operand) ← expression value
    return code ++ [.copy name operand]
  | .block statements _ => sequence statements
  | .ifThen condition thenBranch _ => do
    let elseLabel ← newLabel
    let (test, operand) ← expression condition
    let thenCode ← statement thenBranch
    return test ++ .jumpUnless operand elseLabel :: thenCode ++ [.label elseLabel]
  | .ifElse condition thenBranch elseBranch _ => do
    let elseLabel ← newLabel
    let (test, operand) ← expression condition
    let thenCode ← statement thenBranch
    let endLabel ← newLabel
    let elseCode ← statement elseBranch
    return test ++ .jumpUnless operand elseLabel :: thenCode ++
      .jump endLabel :: .label elseLabel :: elseCode ++ [.label endLabel]
  | .whileLoop condition body _ => do
    let startLabel ← newLabel
    let endLabel ← newLabel
    let (test, operand) ← expression condition
    let bodyCode ← statement body
    return .label startLabel :: test ++ .jumpUnless operand endLabel :: bodyCode ++
      [.jump startLabel, .label endLabel]
  | .forLoop init condition update body _ => do
    let startLabel ← newLabel
    let endLabel ← newLabel
    let initCode ← statement init
    let (test, operand) ← expression condition
    let bodyCode ← statement body
    let updateCode ← statement update
    return initCode ++ .label startLabel :: test ++ .jumpUnless operand endLabel :: bodyCode ++
      updateCode ++ [.jump startLabel, .label endLabel]
  | .ret _ => return [.ret]
  | .retValue value _ => do
    let (code, operand) ← expression value
    return code ++ [.retValue operand]
  | n => do
    let (code, _) ← expression n
    return code

/-- The code of statements one after the other. -/
def sequence : List Node → Lower (List Instruction)
  | [] => return []
  | s :: ss => do
    let first ← statement s
    let more ← sequence ss
    return first ++ more

end

/-- The code of a tree on its own. -/
def generate (n : Node) : Except Failure (List Instruction) := (statement n).run' {}

/-- The code of a program. Each statement is numbered on its own. -/
def generateAll : List Node → Except Failure (List Instruction)
  | [] => return []
  | s :: ss => do
    let first ← generate s
    let more ← generateAll ss
    return first ++ more

end ThreeAddress.Lowering
