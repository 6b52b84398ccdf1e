import ThreeAddress.Proofs.Tree.Parts

/-!
# Legible trees

The trees whose texts can be read back: they are expressions and statements, and their names,
strings, operators and types are those that a source text can have.

* `LegibleExpression`, `LegibleStatement`: the trees, with the spelling of each node beside its
  shape.
* `IsStatement.legible`: statements that are spelled as in a source text are legible.
* `parts_subset`: the parts of a part are parts.
-/

namespace ThreeAddress.Node

/-! ## Parts of parts -/

/-- **What a part consists of is part of the tree.** -/
theorem parts_subset {n m : Node} (h : m ∈ n.parts) : m.parts ⊆ n.parts := by
  induction n with
  | int | float | string | var | ret | bare =>
    cases List.mem_singleton.1 h
    exact List.Subset.refl _
  | block ss l ih =>
    rcases List.mem_cons.1 h with rfl | h
    · exact List.Subset.refl _
    · obtain ⟨s, hs, hm⟩ := mem_partsAll.1 h
      intro k hk
      exact List.mem_cons_of_mem _ (mem_partsAll.2 ⟨s, hs, ih s hs hm hk⟩)
  | _ => grind

theorem parts_subset_partsAll {ss : List Node} {n : Node} (h : n ∈ partsAll ss) :
    n.parts ⊆ partsAll ss := by
  obtain ⟨s, hs, hn⟩ := mem_partsAll.1 h
  intro m hm
  exact mem_partsAll.2 ⟨s, hs, parts_subset hn hm⟩

/-! ## Legible trees -/

/-- If the node declares a variable, the type is one of the language. -/
def DeclaresKnown : Node → Prop
  | assign _ _ declares _ => ∀ type ∈ declares, type ∈ [Ty.int, Ty.float, Ty.string]
  | _ => True

/-- Expressions that are spelled as in a source text. -/
inductive LegibleExpression : Node → Prop
  | int {value : Int} {l : Option Location} : LegibleExpression (.int value l)
  | float {value : Float} {l : Option Location} : LegibleExpression (.float value l)
  | string {value : String} {l : Option Location} :
      '"' ∉ value.toList → LegibleExpression (.string value l)
  | var {name : String} {l : Option Location} : IsName name → LegibleExpression (.var name l)
  | binary {left right : Node} {op : Operator} {l : Option Location} :
      op ∈ Operator.known → LegibleExpression left → LegibleExpression right →
      LegibleExpression (.binary left op right l)

/-- Statements that are spelled as in a source text. -/
inductive LegibleStatement : Node → Prop
  | assign {name : String} {value : Node} {declares : Option Ty} {l : Option Location} :
      (∀ type ∈ declares, type ∈ [Ty.int, Ty.float, Ty.string]) → IsName name →
      LegibleExpression value → LegibleStatement (.assign name value declares l)
  | block {statements : List Node} {l : Option Location} :
      (∀ s ∈ statements, LegibleStatement s) → LegibleStatement (.block statements l)
  | ifThen {condition thenBranch : Node} {l : Option Location} :
      LegibleExpression condition → LegibleStatement thenBranch →
      LegibleStatement (.ifThen condition thenBranch l)
  | ifElse {condition thenBranch elseBranch : Node} {l : Option Location} :
      LegibleExpression condition → LegibleStatement thenBranch → LegibleStatement elseBranch →
      LegibleStatement (.ifElse condition thenBranch elseBranch l)
  | forLoop {init condition update body : Node} {l : Option Location} :
      LegibleStatement init → LegibleExpression condition → LegibleStatement update →
      LegibleStatement body → LegibleStatement (.forLoop init condition update body l)
  | whileLoop {condition body : Node} {l : Option Location} :
      LegibleExpression condition → LegibleStatement body →
      LegibleStatement (.whileLoop condition body l)
  | ret {l : Option Location} : LegibleStatement (.ret l)
  | retValue {value : Node} {l : Option Location} :
      LegibleExpression value → LegibleStatement (.retValue value l)

theorem IsExpression.legible {e : Node} (he : e.IsExpression) (hspelled : e.AllSpelled) :
    e.LegibleExpression := by
  induction he with
  | int => exact .int
  | float => exact .float
  | string => exact .string ((AllSpelled.leaf rfl).1 hspelled)
  | var => exact .var ((AllSpelled.leaf rfl).1 hspelled)
  | binary _ _ ihl ihr =>
    obtain ⟨hop, hleft, hright⟩ := AllSpelled.binary.1 hspelled
    exact .binary hop (ihl hleft) (ihr hright)

/-- **What is spelled as in a source text is legible.** -/
theorem IsStatement.legible {s : Node} (hs : s.IsStatement) (hspelled : s.AllSpelled)
    (hdeclares : ∀ m ∈ s.parts, m.DeclaresKnown) : s.LegibleStatement := by
  induction hs with
  | @assign name value declares l he =>
    obtain ⟨hname, hvalue⟩ := AllSpelled.assign.1 hspelled
    have htype := hdeclares (.assign name value declares l) List.mem_cons_self
    exact .assign htype hname (he.legible hvalue)
  | block _ ih =>
    have hspelled := AllSpelled.block.1 hspelled
    obtain ⟨-, hdeclares⟩ := forall_parts_block.1 hdeclares
    exact .block fun s hs => ih s hs (hspelled s hs) (hdeclares s hs)
  | ifThen hc _ iht =>
    obtain ⟨hcondition, hthen⟩ := AllSpelled.ifThen.1 hspelled
    obtain ⟨-, -, hdeclares⟩ := forall_parts_ifThen.1 hdeclares
    exact .ifThen (hc.legible hcondition) (iht hthen hdeclares)
  | ifElse hc _ _ iht ihe =>
    obtain ⟨hcondition, hthen, helse⟩ := AllSpelled.ifElse.1 hspelled
    obtain ⟨-, -, hdeclares, hdeclares'⟩ := forall_parts_ifElse.1 hdeclares
    exact .ifElse (hc.legible hcondition) (iht hthen hdeclares) (ihe helse hdeclares')
  | forLoop _ hc _ _ ihi ihu ihb =>
    obtain ⟨hinit, hcondition, hupdate, hbody⟩ := AllSpelled.forLoop.1 hspelled
    obtain ⟨-, hdeclares, -, hdeclares', hdeclares''⟩ := forall_parts_forLoop.1 hdeclares
    exact .forLoop (ihi hinit hdeclares) (hc.legible hcondition) (ihu hupdate hdeclares')
      (ihb hbody hdeclares'')
  | whileLoop hc _ ihb =>
    obtain ⟨hcondition, hbody⟩ := AllSpelled.whileLoop.1 hspelled
    obtain ⟨-, -, hdeclares⟩ := forall_parts_whileLoop.1 hdeclares
    exact .whileLoop (hc.legible hcondition) (ihb hbody hdeclares)
  | ret => exact .ret
  | retValue he => exact .retValue (he.legible (AllSpelled.retValue.1 hspelled))

theorem LegibleExpression.isExpression {e : Node} (h : e.LegibleExpression) : e.IsExpression := by
  induction h with
  | int => exact .int
  | float => exact .float
  | string => exact .string
  | var => exact .var
  | binary _ _ _ ihl ihr => exact .binary ihl ihr

theorem LegibleStatement.isStatement {s : Node} (h : s.LegibleStatement) : s.IsStatement := by
  induction h with
  | assign _ _ he => exact .assign he.isExpression
  | block _ ih => exact .block ih
  | ifThen hc _ iht => exact .ifThen hc.isExpression iht
  | ifElse hc _ _ iht ihe => exact .ifElse hc.isExpression iht ihe
  | forLoop _ hc _ _ ihi ihu ihb => exact .forLoop ihi hc.isExpression ihu ihb
  | whileLoop hc _ ihb => exact .whileLoop hc.isExpression ihb
  | ret => exact .ret
  | retValue he => exact .retValue he.isExpression

end ThreeAddress.Node
