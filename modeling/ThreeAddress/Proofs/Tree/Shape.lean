import ThreeAddress.Tree.Basic

/-!
# Shapes of trees

Any node may stand in any position of a tree. The phases accept far fewer trees: operands are
expressions, and what stands in the place of a statement is a statement.

* `IsExpression`, `IsStatement`: the trees that have a meaning.
* `Node.names`: the variables that a tree sets or reads.
* `Node.induction`: induction over trees, with a hypothesis for each statement of a block.
-/

namespace ThreeAddress

namespace Node

/-! ## Induction -/

/-- Induction over trees. -/
@[elab_as_elim, induction_eliminator]
theorem induction {P : Node → Prop}
    (assign : ∀ name value declares location, P value → P (.assign name value declares location))
    (binary : ∀ left op right location, P left → P right → P (.binary left op right location))
    (int : ∀ value location, P (.int value location))
    (float : ∀ value location, P (.float value location))
    (string : ∀ value location, P (.string value location))
    (var : ∀ name location, P (.var name location))
    (ifThen : ∀ condition thenBranch location, P condition → P thenBranch →
      P (.ifThen condition thenBranch location))
    (ifElse : ∀ condition thenBranch elseBranch location, P condition → P thenBranch →
      P elseBranch → P (.ifElse condition thenBranch elseBranch location))
    (forLoop : ∀ init condition update body location, P init → P condition → P update → P body →
      P (.forLoop init condition update body location))
    (whileLoop : ∀ condition body location, P condition → P body →
      P (.whileLoop condition body location))
    (ret : ∀ location, P (.ret location))
    (retValue : ∀ value location, P value → P (.retValue value location))
    (block : ∀ statements location, (∀ s ∈ statements, P s) → P (.block statements location))
    (bare : ∀ location, P (.bare location)) (n : Node) : P n :=
  @Node.rec P (fun ss => ∀ s ∈ ss, P s) assign binary int float string var ifThen ifElse forLoop
    whileLoop ret retValue block bare (fun _ h => absurd h List.not_mem_nil)
    (fun _ _ hs hss => List.forall_mem_cons.2 ⟨hs, hss⟩) n

/-! ## Expressions and statements -/

/-- Literals, variables, and operations on expressions. -/
inductive IsExpression : Node → Prop
  | int {value : Int} {location : Option Location} : IsExpression (.int value location)
  | float {value : Float} {location : Option Location} : IsExpression (.float value location)
  | string {value : String} {location : Option Location} : IsExpression (.string value location)
  | var {name : String} {location : Option Location} : IsExpression (.var name location)
  | binary {left right : Node} {op : Operator} {location : Option Location} :
      IsExpression left → IsExpression right → IsExpression (.binary left op right location)

/-- Assignments, branches, loops, returns and blocks whose operands are expressions and whose
branches and bodies are statements. -/
inductive IsStatement : Node → Prop
  | assign {name : String} {value : Node} {declares : Option Ty} {location : Option Location} :
      IsExpression value → IsStatement (.assign name value declares location)
  | ifThen {condition thenBranch : Node} {location : Option Location} :
      IsExpression condition → IsStatement thenBranch →
      IsStatement (.ifThen condition thenBranch location)
  | ifElse {condition thenBranch elseBranch : Node} {location : Option Location} :
      IsExpression condition → IsStatement thenBranch → IsStatement elseBranch →
      IsStatement (.ifElse condition thenBranch elseBranch location)
  | forLoop {init condition update body : Node} {location : Option Location} :
      IsStatement init → IsExpression condition → IsStatement update → IsStatement body →
      IsStatement (.forLoop init condition update body location)
  | whileLoop {condition body : Node} {location : Option Location} :
      IsExpression condition → IsStatement body → IsStatement (.whileLoop condition body location)
  | ret {location : Option Location} : IsStatement (.ret location)
  | retValue {value : Node} {location : Option Location} :
      IsExpression value → IsStatement (.retValue value location)
  | block {statements : List Node} {location : Option Location} :
      (∀ s ∈ statements, IsStatement s) → IsStatement (.block statements location)

/-! ## Variables -/

mutual

/-- The variables that a tree sets or reads, in the order of the text. -/
def names : Node → List String
  | assign name value _ _ => name :: value.names
  | binary left _ right _ => left.names ++ right.names
  | var name _ => [name]
  | ifThen condition thenBranch _ => condition.names ++ thenBranch.names
  | ifElse condition thenBranch elseBranch _ =>
    condition.names ++ thenBranch.names ++ elseBranch.names
  | forLoop init condition update body _ =>
    init.names ++ condition.names ++ update.names ++ body.names
  | whileLoop condition body _ => condition.names ++ body.names
  | retValue value _ => value.names
  | block statements _ => namesAll statements
  | _ => []

/-- The variables that some trees set or read. -/
def namesAll : List Node → List String
  | [] => []
  | s :: ss => s.names ++ namesAll ss

end

end Node

end ThreeAddress
