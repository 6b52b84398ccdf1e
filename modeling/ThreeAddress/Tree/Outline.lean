import ThreeAddress.Problem
import ThreeAddress.Tree.Inline

/-!
# Outline

A tree over several lines, where depth shows as indentation by two spaces. Branches and loops have
their parts under labels; the parts of other nodes stand directly below them.
-/

namespace ThreeAddress

/-- An entry of an outline at the given depth. -/
def outlineEntry (depth : Nat) (text : String) : String :=
  String.ofList (List.replicate (2 * depth) ' ') ++ text

/-- The entries of a part below its label. -/
def outlinePart (depth : Nat) (label : String) (entries : List String) : List String :=
  outlineEntry depth (label ++ ":") :: entries

namespace Node

mutual

/-- The outline of a tree whose root stands at the given depth. -/
def outlineAt (depth : Nat) : Node → Except Failure (List String)
  | assign name value declares _ => do
    let below ← value.outlineAt (depth + 1)
    return outlineEntry depth ("AssignNode: " ++ Ty.lead declares ++ name) :: below
  | binary left op right _ => do
    let leftBelow ← left.outlineAt (depth + 1)
    let rightBelow ← right.outlineAt (depth + 1)
    return outlineEntry depth ("Binary Operation: " ++ op.symbol) :: leftBelow ++ rightBelow
  | int value _ => return [outlineEntry depth ("Integer: " ++ Literal.intText value)]
  | float value _ => return [outlineEntry depth ("Float: " ++ Literal.floatText value)]
  | string value _ => return [outlineEntry depth ("String: " ++ Literal.stringText value)]
  | var name _ => return [outlineEntry depth ("VarNode: " ++ name)]
  | ifThen condition thenBranch _ => do
    let conditionBelow ← condition.outlineAt (depth + 2)
    let thenBelow ← thenBranch.outlineAt (depth + 2)
    return outlineEntry depth "If Statement" ::
      outlinePart (depth + 1) "Condition" conditionBelow ++
      outlinePart (depth + 1) "Then" thenBelow
  | ifElse condition thenBranch elseBranch _ => do
    let conditionBelow ← condition.outlineAt (depth + 2)
    let thenBelow ← thenBranch.outlineAt (depth + 2)
    let elseBelow ← elseBranch.outlineAt (depth + 2)
    return outlineEntry depth "If Statement" ::
      outlinePart (depth + 1) "Condition" conditionBelow ++
      outlinePart (depth + 1) "Then" thenBelow ++
      outlinePart (depth + 1) "Else" elseBelow
  | forLoop init condition update body _ => do
    let initBelow ← init.outlineAt (depth + 2)
    let conditionBelow ← condition.outlineAt (depth + 2)
    let updateBelow ← update.outlineAt (depth + 2)
    let bodyBelow ← body.outlineAt (depth + 2)
    return outlineEntry depth "For Loop" ::
      outlinePart (depth + 1) "Initialization" initBelow ++
      outlinePart (depth + 1) "Condition" conditionBelow ++
      outlinePart (depth + 1) "Update" updateBelow ++
      outlinePart (depth + 1) "Body" bodyBelow
  | whileLoop condition body _ => do
    let conditionBelow ← condition.outlineAt (depth + 2)
    let bodyBelow ← body.outlineAt (depth + 2)
    return outlineEntry depth "While Loop" ::
      outlinePart (depth + 1) "Condition" conditionBelow ++
      outlinePart (depth + 1) "Body" bodyBelow
  | ret _ => return [outlineEntry depth "Return", outlineEntry (depth + 1) "(empty)"]
  | retValue value _ => do
    let below ← value.outlineAt (depth + 1)
    return outlineEntry depth "Return" :: below
  | block statements _ => do
    let below ← outlineAll (depth + 1) statements
    return outlineEntry depth "\x7bBlock\x7d" :: below
  | bare l => throw (.unsupported .outline (bare l).kindName)

/-- The outlines of some trees, one below the other. -/
def outlineAll (depth : Nat) : List Node → Except Failure (List String)
  | [] => return []
  | s :: ss => do
    let first ← s.outlineAt depth
    let more ← outlineAll depth ss
    return first ++ more

end

/-- The outline of a tree. -/
def outline (n : Node) : Except Failure String := do
  let entries ← n.outlineAt 0
  return "\n".intercalate entries

/-- The outline of a program, below a common root. -/
def outlineProgram (statements : List Node) : Except Failure String := do
  let entries ← outlineAll 1 statements
  return "\n".intercalate ("Program" :: entries)

end Node

end ThreeAddress
