import ThreeAddress.Literal
import ThreeAddress.Tree.Basic

/-!
# One-line form

A tree on one line. Each compound node is written with the name of its kind and its parts in
brackets; literals are written as in a program.
-/

namespace ThreeAddress

/-- The text that stands before the name of a declared variable. -/
def Ty.lead : Option Ty → String
  | none => ""
  | some t => if t.name.isEmpty then "" else t.name ++ " "

/-- A string literal between double quotes, as it is. -/
def Literal.stringText (value : String) : String := "\"" ++ value ++ "\""

namespace Node

mutual

/-- The one-line form of a tree. -/
def inline : Node → String
  | assign name value declares _ =>
    "AssignNode(" ++ Ty.lead declares ++ name ++ " = " ++ value.inline ++ ")"
  | binary left op right _ =>
    "BinOpNode(" ++ left.inline ++ " " ++ op.symbol ++ " " ++ right.inline ++ ")"
  | int value _ => Literal.intText value
  | float value _ => Literal.floatText value
  | string value _ => Literal.stringText value
  | var name _ => "VarNode(" ++ name ++ ")"
  | ifThen condition thenBranch _ =>
    "IfNode(cond=" ++ condition.inline ++ ", then=" ++ thenBranch.inline ++ ", else=None)"
  | ifElse condition thenBranch elseBranch _ =>
    "IfNode(cond=" ++ condition.inline ++ ", then=" ++ thenBranch.inline ++
      ", else=" ++ elseBranch.inline ++ ")"
  | forLoop init condition update body _ =>
    "ForNode(init=" ++ init.inline ++ ", cond=" ++ condition.inline ++
      ", update=" ++ update.inline ++ ", body=" ++ body.inline ++ ")"
  | whileLoop condition body _ =>
    "WhileNode(cond=" ++ condition.inline ++ ", body=" ++ body.inline ++ ")"
  | ret _ => "ReturnNode(value=None)"
  | retValue value _ => "ReturnNode(value=" ++ value.inline ++ ")"
  | block statements _ => "BlockNode([" ++ ", ".intercalate (inlineAll statements) ++ "])"
  | bare _ => "ASTNode()"

/-- The one-line forms of some trees. -/
def inlineAll : List Node → List String
  | [] => []
  | s :: ss => s.inline :: inlineAll ss

end

end Node

end ThreeAddress
