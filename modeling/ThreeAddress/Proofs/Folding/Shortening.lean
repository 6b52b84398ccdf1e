import ThreeAddress.Proofs.Code.Skeleton
import ThreeAddress.Proofs.Folding.Idempotence

/-!
# Code of folded trees

**Theorem (`generate_fold`).** A folded tree has code if the tree has. It has one line less for each
operation that was carried out, and the same labels and jumps. If the integers of the tree have
texts, so have those of the folded tree, and its code can be written too.

The code of a tree accords with the tree, so that trees are compared and not their code. An
operation that is carried out is one line of code, and the literal in its place is none
(`Reduces.operations_eq`). Folding keeps the branches and loops in their places, and with them the
labels (`Folds.skeleton_eq`).
-/

namespace ThreeAddress

open Lowering

/-- If the node is an integer, it has a text. -/
def Node.HasText : Node → Prop
  | int value _ => Literal.hasText value = true
  | _ => True

/-- All integers of the tree have texts. -/
def Node.HasTexts (n : Node) : Prop := ∀ m ∈ n.parts, m.HasText

namespace Folding

variable {left right n n' : Node} {op : Operator} {l : Option Location} {told : List Notice}

/-! ## Folded trees have code -/

theorem Reduces.isExpression (h : Reduces left op right l n told) (hl : left.IsExpression)
    (hr : right.IsExpression) : n.IsExpression := by
  induction h with
  | ints => exact .int
  | floats => exact .float
  | tooLong | intsKept | floatsKept | beyondLeft | beyondRight | kept => exact .binary hl hr
  | promoteLeft _ _ ih => exact ih .float hr
  | promoteRight _ _ ih => exact ih hl .float

theorem Folds.isExpression (h : Folds n n' told) (hn : n.IsExpression) : n'.IsExpression := by
  induction h with
  | untouched => exact hn
  | binary _ _ hreduces ihl ihr =>
    cases hn with
    | binary hl hr => exact hreduces.isExpression (ihl hl) (ihr hr)
  | ifThen | ifElse | forLoop | whileLoop | retValue => cases hn

/-- **A folded tree has code** if the tree has. -/
theorem Folds.lowerable (h : Folds n n' told) (hn : n.Lowerable) : n'.Lowerable := by
  induction h with
  | untouched => exact hn
  | binary hl hr hreduces =>
    cases hn with
    | expression he => exact .expression ((Folds.binary hl hr hreduces).isExpression he)
  | ifThen hc _ _ iht =>
    cases hn with
    | expression he => cases he
    | ifThen hcondition ht => exact .ifThen (hc.isExpression hcondition) (iht ht)
  | ifElse hc _ _ _ iht ihe =>
    cases hn with
    | expression he => cases he
    | ifElse hcondition ht he => exact .ifElse (hc.isExpression hcondition) (iht ht) (ihe he)
  | forLoop _ ihb =>
    cases hn with
    | expression he => cases he
    | forLoop hi hc hb hu => exact .forLoop hi hc (ihb hb) hu
  | whileLoop _ ihb =>
    cases hn with
    | expression he => cases he
    | whileLoop hc hb => exact .whileLoop hc (ihb hb)
  | retValue he =>
    cases hn with
    | expression he => cases he
    | retValue hvalue => exact .retValue (he.isExpression hvalue)

/-! ## One line for each operation that is carried out -/

theorem Reduces.operations_eq (h : Reduces left op right l n told) :
    left.operations + right.operations + 1 = n.operations + told.countP Notice.carriedOut := by
  induction h with
  | promoteLeft _ _ ih | promoteRight _ _ ih => exact ih
  | _ => rfl

theorem Folds.operations_eq (h : Folds n n' told) :
    n.operations = n'.operations + told.countP Notice.carriedOut := by
  induction h with
  | untouched => rfl
  | binary _ _ hreduces ihl ihr =>
    have hone := hreduces.operations_eq
    simp only [Node.operations, List.countP_append]
    omega
  | ifThen _ _ ihc iht =>
    simp only [Node.operations, List.countP_append]
    omega
  | ifElse _ _ _ ihc iht ihe =>
    simp only [Node.operations, List.countP_append]
    omega
  | forLoop _ ihb | whileLoop _ ihb =>
    simp only [Node.operations]
    omega
  | retValue _ ih => exact ih

theorem Reduces.lineCount_eq (h : Reduces left op right l n told) :
    n.lineCount = n.operations := by
  induction h with
  | promoteLeft _ _ ih | promoteRight _ _ ih => exact ih
  | _ => rfl

/-- **One line is saved for each operation that is carried out.** -/
theorem Folds.lineCount_eq (h : Folds n n' told) :
    n.lineCount = n'.lineCount + told.countP Notice.carriedOut := by
  induction h with
  | untouched => rfl
  | binary hl hr hreduces =>
    rw [hreduces.lineCount_eq]
    exact (Folds.binary hl hr hreduces).operations_eq
  | ifThen hc _ _ iht =>
    have hcondition := hc.operations_eq
    simp only [Node.lineCount, List.countP_append]
    omega
  | ifElse hc _ _ _ iht ihe =>
    have hcondition := hc.operations_eq
    simp only [Node.lineCount, List.countP_append]
    omega
  | forLoop _ ihb | whileLoop _ ihb =>
    simp only [Node.lineCount]
    omega
  | retValue he =>
    have hvalue := he.operations_eq
    simp only [Node.lineCount]
    omega

/-! ## The same labels and jumps -/

theorem Reduces.labelCount_eq (h : Reduces left op right l n told) :
    n.labelCount = left.labelCount + right.labelCount := by
  induction h with
  | promoteLeft _ _ ih | promoteRight _ _ ih => exact ih
  | kept => exact Node.labelCount_binary
  | _ => rfl

theorem Folds.labelCount_eq (h : Folds n n' told) : n'.labelCount = n.labelCount := by
  induction h with
  | untouched => rfl
  | binary _ _ hreduces ihl ihr =>
    rw [hreduces.labelCount_eq, ihl, ihr, Node.labelCount_binary]
  | ifThen _ _ ihc iht => rw [Node.labelCount_ifThen, Node.labelCount_ifThen, ihc, iht]
  | ifElse _ _ _ ihc iht ihe =>
    rw [Node.labelCount_ifElse, Node.labelCount_ifElse, ihc, iht, ihe]
  | forLoop _ ihb => rw [Node.labelCount_forLoop, Node.labelCount_forLoop, ihb]
  | whileLoop _ ihb => rw [Node.labelCount_whileLoop, Node.labelCount_whileLoop, ihb]
  | retValue _ ih => rw [Node.labelCount_retValue, Node.labelCount_retValue, ih]

theorem Reduces.skeleton_eq (h : Reduces left op right l n told) (number : Nat) :
    n.skeleton number = [] := by
  induction h with
  | promoteLeft _ _ ih | promoteRight _ _ ih => exact ih
  | _ => rfl

/-- **A folded tree has the labels and jumps** of the tree. -/
theorem Folds.skeleton_eq (h : Folds n n' told) (number : Nat) :
    n'.skeleton number = n.skeleton number := by
  induction h generalizing number with
  | untouched => rfl
  | binary _ _ hreduces => exact hreduces.skeleton_eq number
  | ifThen _ _ _ iht => rw [Node.skeleton, Node.skeleton, iht]
  | ifElse _ ht _ _ iht ihe => rw [Node.skeleton, Node.skeleton, iht, ihe, ht.labelCount_eq]
  | forLoop hb ihb => rw [Node.skeleton, Node.skeleton, ihb, hb.labelCount_eq]
  | whileLoop _ ihb => rw [Node.skeleton, Node.skeleton, ihb]
  | retValue => rfl

/-! ## Integers that are written -/

theorem Reduces.hasTexts (h : Reduces left op right l n told) (hl : left.HasTexts)
    (hr : right.HasTexts) : n.HasTexts := by
  induction h with
  | ints _ _ htext => exact List.forall_mem_singleton.2 htext
  | floats => exact List.forall_mem_singleton.2 trivial
  | tooLong | intsKept | floatsKept | beyondLeft | beyondRight | kept =>
    exact Node.forall_parts_binary.2 ⟨trivial, hl, hr⟩
  | promoteLeft _ _ ih => exact ih (List.forall_mem_singleton.2 trivial) hr
  | promoteRight _ _ ih => exact ih hl (List.forall_mem_singleton.2 trivial)

/-- **The integers of a folded tree have texts** if those of the tree have. -/
theorem Folds.hasTexts (h : Folds n n' told) (hn : n.HasTexts) : n'.HasTexts := by
  induction h with
  | untouched => exact hn
  | binary _ _ hreduces ihl ihr =>
    obtain ⟨-, hl, hr⟩ := Node.forall_parts_binary.1 hn
    exact hreduces.hasTexts (ihl hl) (ihr hr)
  | ifThen _ _ ihc iht =>
    obtain ⟨-, hc, ht⟩ := Node.forall_parts_ifThen.1 hn
    exact Node.forall_parts_ifThen.2 ⟨trivial, ihc hc, iht ht⟩
  | ifElse _ _ _ ihc iht ihe =>
    obtain ⟨-, hc, ht, he⟩ := Node.forall_parts_ifElse.1 hn
    exact Node.forall_parts_ifElse.2 ⟨trivial, ihc hc, iht ht, ihe he⟩
  | forLoop _ ihb =>
    obtain ⟨-, hi, hc, hu, hb⟩ := Node.forall_parts_forLoop.1 hn
    exact Node.forall_parts_forLoop.2 ⟨trivial, hi, hc, hu, ihb hb⟩
  | whileLoop _ ihb =>
    obtain ⟨-, hc, hb⟩ := Node.forall_parts_whileLoop.1 hn
    exact Node.forall_parts_whileLoop.2 ⟨trivial, hc, ihb hb⟩
  | retValue _ ih =>
    obtain ⟨-, he⟩ := List.forall_mem_cons.1 hn
    exact List.forall_mem_cons.2 ⟨trivial, ih he⟩

/-! ## Shorter code -/

/-- **A folded tree has shorter code.** -/
theorem generate_fold {n n' : Node} {notices notices' : List Notice} {code : List Instruction}
    (hfold : fold n notices = .ok n' notices') (hcode : generate n = .ok code) :
    ∃ told code', notices' = notices ++ told ∧ generate n' = .ok code' ∧
      code.length = code'.length + told.countP Notice.carriedOut ∧
      skeletonOf code' = skeletonOf code ∧ (n.HasTexts → n'.HasTexts) := by
  obtain ⟨told, hfolds, rfl⟩ := fold_eq_ok_iff.1 hfold
  have hlowerable := lowerable_of_generate hcode
  obtain ⟨_, hgenerate, hlength, hskeleton⟩ := hlowerable.generate_eq
  cases hcode.symm.trans hgenerate
  obtain ⟨code', hcode', hlength', hskeleton'⟩ := (hfolds.lowerable hlowerable).generate_eq
  refine ⟨told, code', rfl, hcode', ?_, ?_, hfolds.hasTexts⟩
  · rw [hlength, hlength', hfolds.lineCount_eq]
  · rw [hskeleton, hskeleton', hfolds.skeleton_eq]

/-- In `while (x) return 1 + 2;` the sum is carried out, and the loop is kept. -/
theorem returnedSum_shortened :
    let loop : Node → Node := fun value => .whileLoop (.var "x" none) (.retValue value none) none
    fold (loop onePlusTwo) [] = .ok (loop (.int 3 none)) [.foldedInts 1 .add 2 3] ∧
    ∃ code code', generate (loop onePlusTwo) = .ok code ∧
      generate (loop (.int 3 none)) = .ok code' ∧ code.length = 6 ∧ code'.length = 5 ∧
      skeletonOf code' = [.label 0, .jumpUnless 1, .jump 0, .label 1] := by
  intro loop
  have hfolds : Folds (loop onePlusTwo) (loop (.int 3 none)) [.foldedInts 1 .add 2 3] :=
    .whileLoop (.retValue onePlusTwo_folds)
  have hfold := hfolds.fold_eq []
  have hcode : generate (loop onePlusTwo) =
      .ok [.label 0, .jumpUnless (.var "x") 1, .binary 0 (.int 1) .add (.int 2),
        .retValue (.temp 0), .jump 0, .label 1] := rfl
  obtain ⟨told, code', htold, hcode', hlength, hskeleton, -⟩ := generate_fold hfold hcode
  cases htold
  exact ⟨hfold, _, code', hcode, hcode', rfl, Nat.add_right_cancel hlength.symm, hskeleton⟩

end Folding

end ThreeAddress
