import ThreeAddress.Proofs.Folding.Relation
import ThreeAddress.Proofs.Literal.Written

/-!
# Folding a folded tree

**Theorem (`fold_idempotent`).** A folded tree folds to itself. The second time the same operations
are told that could not be carried out the first time, and no operation is carried out.

What is told on a folded numeral is nothing, so an operation that has been carried out leaves no
trace for a second time. An operation that is kept is kept again for the same reason, except that an
integer may have become a float in it; then both operands are floats (`Reduces.again`).
-/

namespace ThreeAddress

/-- Whether a notice tells that an operation has been carried out. -/
def Notice.carriedOut : Notice → Bool
  | .foldedInts .. | .foldedFloats .. => true
  | _ => false

namespace Folding

variable {left right n n' : Node} {op : Operator} {l : Option Location} {told ts ts' : List Notice}

theorem Folds.of_isNumeral (h : Folds n n' told) (hn : n.isNumeral = true) : told = [] := by
  cases h with
  | untouched => rfl
  | binary | ifThen | ifElse | forLoop | whileLoop | retValue => cases hn

/-- What has been put in the place of an operation stays there, if the operands stay. -/
theorem Reduces.again (h : Reduces left op right l n told) (hl : Folds left left ts)
    (hr : Folds right right ts') :
    Folds n n (ts ++ (ts' ++ told.filter (!·.carriedOut))) := by
  induction h generalizing ts ts' with
  | ints | floats =>
    obtain rfl := hl.of_isNumeral rfl
    obtain rfl := hr.of_isNumeral rfl
    exact .untouched rfl
  | tooLong hzero hresult htext => exact .binary hl hr (.tooLong hzero hresult htext)
  | intsKept hresult => exact .binary hl hr (.intsKept hresult)
  | floatsKept hresult => exact .binary hl hr (.floatsKept hresult)
  | promoteLeft _ _ ih =>
    obtain rfl := hl.of_isNumeral rfl
    exact ih (.untouched rfl) hr
  | promoteRight _ _ ih =>
    obtain rfl := hr.of_isNumeral rfl
    exact ih hl (.untouched rfl)
  | beyondLeft hx => exact .binary hl hr (.beyondLeft hx)
  | beyondRight hx => exact .binary hl hr (.beyondRight hx)
  | kept hnumerals => exact .binary hl hr (.kept hnumerals)

/-- **A folded tree folds to itself.** -/
theorem Folds.again (h : Folds n n' told) : Folds n' n' (told.filter (!·.carriedOut)) := by
  induction h with
  | untouched hn => exact .untouched hn
  | binary _ _ hreduces ihl ihr =>
    rw [List.filter_append, List.filter_append]
    exact hreduces.again ihl ihr
  | ifThen _ _ ihc iht =>
    rw [List.filter_append]
    exact .ifThen ihc iht
  | ifElse _ _ _ ihc iht ihe =>
    rw [List.filter_append, List.filter_append]
    exact .ifElse ihc iht ihe
  | forLoop _ ihb => exact .forLoop ihb
  | whileLoop _ ihb => exact .whileLoop ihb
  | retValue _ ih => exact .retValue ih

/-- **Folding is idempotent.** Behind any notices, a second time gives the same tree, and it tells
what the first time has told but for the operations that were carried out. -/
theorem fold_idempotent {n n' : Node} {notices notices' : List Notice}
    (h : fold n notices = .ok n' notices') (before : List Notice) :
    ∃ told, notices' = notices ++ told ∧
      fold n' before = .ok n' (before ++ told.filter (!·.carriedOut)) := by
  obtain ⟨told, hfolds, rfl⟩ := fold_eq_ok_iff.1 h
  exact ⟨told, rfl, hfolds.again.fold_eq before⟩

/-- `1 + 2` -/
def onePlusTwo : Node := .binary (.int 1 none) .add (.int 2 none) none

theorem onePlusTwo_folds : Folds onePlusTwo (.int 3 none) [.foldedInts 1 .add 2 3] := by
  have hthree : Literal.hasText (Literal.value [3]) = true :=
    Literal.hasText_value (by decide) (by decide)
  rw [show (Literal.value [3] : Int) = 3 from rfl] at hthree
  exact .binary (.untouched rfl) (.untouched rfl) (.ints (by decide) rfl hthree)

/-- In `return 1 + 2 < 0.5;` the sum is carried out, and it becomes a float in the comparison. -/
theorem comparedSum_idempotent :
    let tree : Node → Node := fun left => .retValue (.binary left .lt (.float 0.5 none) none) none
    fold (tree onePlusTwo) [] = .ok (tree (.float 3.0 none)) [.foldedInts 1 .add 2 3] ∧
      fold (tree (.float 3.0 none)) [] = .ok (tree (.float 3.0 none)) [] := by
  intro tree
  have hfloat : promote? 3 = some 3.0 := by decide
  have hfolds : Folds (tree onePlusTwo) (tree (.float 3.0 none)) [.foldedInts 1 .add 2 3] :=
    .retValue (.binary onePlusTwo_folds (.untouched rfl) (.promoteLeft hfloat (.floatsKept rfl)))
  have hfold := hfolds.fold_eq []
  obtain ⟨told, htold, hagain⟩ := fold_idempotent hfold []
  cases htold
  exact ⟨hfold, hagain⟩

end Folding

end ThreeAddress
