import ThreeAddress.Proofs.Tree.Entries

/-!
# Regular trees

The trees that the grammar yields, and that folding keeps within: each integer has a written form,
operands are expressions, the branches and bodies of statements are blocks, and the first and last
part of a loop's head are assignments. So every phase has a rule for each of their nodes.

* `RegularExpression`, `Regular`: the trees.
* `outlineProgram_of_regular`: a regular program has an outline.
-/

namespace ThreeAddress.Node

/-! ## Shapes -/

def isBlock : Node → Bool
  | block .. => true
  | _ => false

def isAssignment : Node → Bool
  | assign .. => true
  | _ => false

/-- Expressions whose integers have a written form. -/
inductive RegularExpression : Node → Prop
  | int {value : Int} {l : Option Location} :
      Literal.hasText value = true → RegularExpression (.int value l)
  | float {value : Float} {l : Option Location} : RegularExpression (.float value l)
  | string {value : String} {l : Option Location} : RegularExpression (.string value l)
  | var {name : String} {l : Option Location} : RegularExpression (.var name l)
  | binary {left right : Node} {op : Operator} {l : Option Location} :
      RegularExpression left → RegularExpression right →
      RegularExpression (.binary left op right l)

/-- Statements as the grammar yields them. -/
inductive Regular : Node → Prop
  | assign {name : String} {value : Node} {declares : Option Ty} {l : Option Location} :
      RegularExpression value → Regular (.assign name value declares l)
  | block {statements : List Node} {l : Option Location} :
      (∀ s ∈ statements, Regular s) → Regular (.block statements l)
  | ifThen {condition thenBranch : Node} {l : Option Location} :
      RegularExpression condition → thenBranch.isBlock = true → Regular thenBranch →
      Regular (.ifThen condition thenBranch l)
  | ifElse {condition thenBranch elseBranch : Node} {l : Option Location} :
      RegularExpression condition → thenBranch.isBlock = true → Regular thenBranch →
      elseBranch.isBlock = true → Regular elseBranch →
      Regular (.ifElse condition thenBranch elseBranch l)
  | forLoop {init condition update body : Node} {l : Option Location} :
      init.isAssignment = true → Regular init → RegularExpression condition →
      update.isAssignment = true → Regular update → body.isBlock = true → Regular body →
      Regular (.forLoop init condition update body l)
  | whileLoop {condition body : Node} {l : Option Location} :
      RegularExpression condition → body.isBlock = true → Regular body →
      Regular (.whileLoop condition body l)
  | ret {l : Option Location} : Regular (.ret l)
  | retValue {value : Node} {l : Option Location} :
      RegularExpression value → Regular (.retValue value l)

theorem RegularExpression.isExpression {e : Node} (h : RegularExpression e) : e.IsExpression := by
  induction h with
  | int => exact .int
  | float => exact .float
  | string => exact .string
  | var => exact .var
  | binary _ _ ihl ihr => exact .binary ihl ihr

theorem Regular.isStatement {s : Node} (h : Regular s) : s.IsStatement := by
  induction h with
  | assign he => exact .assign he.isExpression
  | block _ ih => exact .block ih
  | ifThen hc _ _ iht => exact .ifThen hc.isExpression iht
  | ifElse hc _ _ _ _ iht ihe => exact .ifElse hc.isExpression iht ihe
  | forLoop _ _ hc _ _ _ _ ihi ihu ihb => exact .forLoop ihi hc.isExpression ihu ihb
  | whileLoop hc _ _ ihb => exact .whileLoop hc.isExpression ihb
  | ret => exact .ret
  | retValue he => exact .retValue he.isExpression

/-! ## Outlines -/

/-- **A regular program has an outline.** -/
theorem outlineProgram_of_regular {ss : List Node} (h : ∀ s ∈ ss, s.Regular) :
    ∃ text, outlineProgram ss = .ok text :=
  ⟨_, outlineProgram_eq fun s hs => (h s hs).isStatement⟩

end ThreeAddress.Node
