import ThreeAddress.Code.Lowering
import ThreeAddress.Stack.Basic
import ThreeAddress.Tree.Outline

/-!
# Walks over whole trees

Lowering, the outline and the one-line form walk a tree down to its leaves and meet no problem of
the program on the way, so the room that they need is a number of calls for each node on the longest
way from a root to a leaf: two in lowering, and three in the other two.
-/

namespace ThreeAddress

namespace Node

mutual

/-- The number of nodes on the longest way from the root of a tree to a leaf. -/
def height : Node → Nat
  | assign _ value _ _ => value.height + 1
  | binary left _ right _ => max left.height right.height + 1
  | ifThen condition thenBranch _ => max condition.height thenBranch.height + 1
  | ifElse condition thenBranch elseBranch _ =>
    max condition.height (max thenBranch.height elseBranch.height) + 1
  | forLoop init condition update body _ =>
    max (max init.height condition.height) (max update.height body.height) + 1
  | whileLoop condition body _ => max condition.height body.height + 1
  | retValue value _ => value.height + 1
  | block statements _ => heightAll statements + 1
  | int .. | float .. | string .. | var .. | ret _ | bare _ => 1

/-- The height of the highest of some trees. -/
def heightAll : List Node → Nat
  | [] => 0
  | s :: ss => max s.height (heightAll ss)

end

/-- The outline of a program, made on a stack. -/
def outlineProgramOn (stack : Stack) (statements : List Node) : Except Failure String :=
  if stack.fits (3 * heightAll statements) then outlineProgram statements else .error .exhausted

end Node

/-- The code of a program, generated on a stack. -/
def Lowering.generateAllOn (stack : Stack) (statements : List Node) :
    Except Failure (List Instruction) :=
  if stack.fits (2 * Node.heightAll statements) then generateAll statements else .error .exhausted

end ThreeAddress
