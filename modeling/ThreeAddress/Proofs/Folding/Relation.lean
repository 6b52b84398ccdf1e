import ThreeAddress.Folding
import ThreeAddress.Proofs.Steps
import ThreeAddress.Proofs.Tree.Shape

/-!
# Folding as a relation

What a tree is folded to, and what is told on the way. The relations have one rule for each thing
that folding does when it succeeds, and leave out how it keeps its notices; proofs about folded
trees are inductions on them.

* `Reduces`: an operation on folded operands, what is put in its place, and the notices.
* `Folds`: a tree, what it is folded to, and the notices.
* `fold_eq_ok_iff`: folding succeeds, behind any notices, with just what the relation gives.
-/

namespace ThreeAddress

/-- Whether a node is a literal that can be calculated with. -/
def Node.isNumeral : Node → Bool
  | .int .. | .float .. => true
  | _ => false

theorem Node.isNumeral_iff {n : Node} :
    n.isNumeral = true ↔ (∃ a p, n = .int a p) ∨ ∃ x p, n = .float x p := by
  cases n <;> simp [isNumeral]

/-- Whether folding leaves a node as it is, with all that is in it. -/
def Node.isUntouched : Node → Bool
  | .int .. | .float .. | .string .. | .var .. | .assign .. | .ret .. | .block .. => true
  | _ => false

namespace Folding

/-! ## Relations -/

/-- What is put in the place of an operation on folded operands, and what is told. -/
inductive Reduces :
    Node → Operator → Node → Option Location → Node → List Notice → Prop
  | ints {a b result : Int} {op : Operator} {p q l : Option Location} :
      ¬ (op = .div ∧ b = 0) → intResult? op a b = some result → Literal.hasText result = true →
      Reduces (.int a p) op (.int b q) l (.int result l) [.foldedInts a op b result]
  | tooLong {a b result : Int} {op : Operator} {p q l : Option Location} :
      ¬ (op = .div ∧ b = 0) → intResult? op a b = some result → Literal.hasText result = false →
      Reduces (.int a p) op (.int b q) l (.binary (.int a p) op (.int b q) l) [.resultTooLong op]
  | intsKept {a b : Int} {op : Operator} {p q l : Option Location} :
      intResult? op a b = none →
      Reduces (.int a p) op (.int b q) l (.binary (.int a p) op (.int b q) l) []
  | floats {x y result : Float} {op : Operator} {p q l : Option Location} :
      floatResult? op x y = some result →
      Reduces (.float x p) op (.float y q) l (.float result l) [.foldedFloats x op y result]
  | floatsKept {x y : Float} {op : Operator} {p q l : Option Location} :
      floatResult? op x y = none →
      Reduces (.float x p) op (.float y q) l (.binary (.float x p) op (.float y q) l) []
  | promoteLeft {a : Int} {x y : Float} {op : Operator} {p q l : Option Location} {n : Node}
      {told : List Notice} :
      promote? a = some x → Reduces (.float x p) op (.float y q) l n told →
      Reduces (.int a p) op (.float y q) l n told
  | promoteRight {b : Int} {x y : Float} {op : Operator} {p q l : Option Location} {n : Node}
      {told : List Notice} :
      promote? b = some y → Reduces (.float x p) op (.float y q) l n told →
      Reduces (.float x p) op (.int b q) l n told
  | beyondLeft {a : Int} {y : Float} {op : Operator} {p q l : Option Location} :
      promote? a = none →
      Reduces (.int a p) op (.float y q) l (.binary (.int a p) op (.float y q) l)
        [.beyondFloats (bitCount a)]
  | beyondRight {b : Int} {x : Float} {op : Operator} {p q l : Option Location} :
      promote? b = none →
      Reduces (.float x p) op (.int b q) l (.binary (.float x p) op (.int b q) l)
        [.beyondFloats (bitCount b)]
  | kept {left right : Node} {op : Operator} {l : Option Location} :
      (left.isNumeral && right.isNumeral) = false →
      Reduces left op right l (.binary left op right l) []

/-- What a tree is folded to, and what is told. -/
inductive Folds : Node → Node → List Notice → Prop
  | untouched {n : Node} : n.isUntouched = true → Folds n n []
  | binary {left left' right right' n : Node} {op : Operator} {l : Option Location}
      {ts ts' ts'' : List Notice} :
      Folds left left' ts → Folds right right' ts' → Reduces left' op right' l n ts'' →
      Folds (.binary left op right l) n (ts ++ (ts' ++ ts''))
  | ifThen {c c' t t' : Node} {l : Option Location} {ts ts' : List Notice} :
      Folds c c' ts → Folds t t' ts' → Folds (.ifThen c t l) (.ifThen c' t' l) (ts ++ ts')
  | ifElse {c c' t t' e e' : Node} {l : Option Location} {ts ts' ts'' : List Notice} :
      Folds c c' ts → Folds t t' ts' → Folds e e' ts'' →
      Folds (.ifElse c t e l) (.ifElse c' t' e' l) (ts ++ (ts' ++ ts''))
  | forLoop {i c u b b' : Node} {l : Option Location} {ts : List Notice} :
      Folds b b' ts → Folds (.forLoop i c u b l) (.forLoop i c u b' l) ts
  | whileLoop {c b b' : Node} {l : Option Location} {ts : List Notice} :
      Folds b b' ts → Folds (.whileLoop c b l) (.whileLoop c b' l) ts
  | retValue {e e' : Node} {l : Option Location} {ts : List Notice} :
      Folds e e' ts → Folds (.retValue e l) (.retValue e' l) ts

/-! ## One operation -/

variable {left right n n' : Node} {op : Operator} {l : Option Location}
  {notices notices' told : List Notice}

theorem Reduces.operation (h : Reduces left op right l n told) (notices : List Notice) :
    operation left op right l notices = .ok n (notices ++ told) := by
  induction h with
  | ints hzero hresult htext =>
    simp only [Folding.operation, Folding.ints, if_neg hzero, hresult, htext, if_true]
    rfl
  | tooLong hzero hresult htext =>
    simp only [Folding.operation, Folding.ints, if_neg hzero, hresult, htext]
    rfl
  | @intsKept a b op _ _ _ hresult =>
    have hzero : ¬ (op = .div ∧ b = 0) := by
      rintro ⟨rfl, -⟩
      cases hresult
    simp only [Folding.operation, Folding.ints, if_neg hzero, hresult, List.append_nil]
    rfl
  | floats hresult =>
    simp only [Folding.operation, Folding.floats, hresult]
    rfl
  | floatsKept hresult =>
    simp only [Folding.operation, Folding.floats, hresult, List.append_nil]
    rfl
  | promoteLeft hx _ ih =>
    simp only [Folding.operation, hx] at ih ⊢
    exact ih
  | promoteRight hy _ ih =>
    simp only [Folding.operation, hy] at ih ⊢
    exact ih
  | beyondLeft hx | beyondRight hx =>
    simp only [Folding.operation, hx]
    rfl
  | kept hnumerals =>
    rw [List.append_nil]
    unfold Folding.operation
    split
    · cases hnumerals
    · cases hnumerals
    · cases hnumerals
    · cases hnumerals
    · rfl

theorem ints_reduces {a b : Int} {p q : Option Location} (notices : List Notice) :
    Meets (ints a op b l (.binary (.int a p) op (.int b q) l)) notices
      (fun n notices' => ∃ told, Reduces (.int a p) op (.int b q) l n told ∧
        notices' = notices ++ told) fun _ _ => True := by
  unfold ints
  by_cases hzero : op = .div ∧ b = 0
  · rw [if_pos hzero]
    exact .throw trivial
  · rw [if_neg hzero]
    cases hresult : intResult? op a b with
    | none => exact .pure ⟨[], .intsKept hresult, (List.append_nil _).symm⟩
    | some result =>
      cases htext : Literal.hasText result with
      | true =>
        simp only [htext, if_true]
        exact .bind (.ok rfl (.pure ⟨_, .ints hzero hresult htext, rfl⟩))
      | false =>
        simp only [htext, Bool.false_eq_true, if_false]
        exact .bind (.ok rfl (.pure ⟨_, .tooLong hzero hresult htext, rfl⟩))

theorem floats_reduces {x y : Float} {p q : Option Location} (notices : List Notice) :
    Meets (floats x op y l (.binary (.float x p) op (.float y q) l)) notices
      (fun n notices' => ∃ told, Reduces (.float x p) op (.float y q) l n told ∧
        notices' = notices ++ told) fun _ _ => True := by
  unfold floats
  cases hresult : floatResult? op x y with
  | none => exact .pure ⟨[], .floatsKept hresult, (List.append_nil _).symm⟩
  | some result => exact .bind (.ok rfl (.pure ⟨_, .floats hresult, rfl⟩))

theorem operation_reduces (left : Node) (op : Operator) (right : Node) (l : Option Location)
    (notices : List Notice) :
    Meets (operation left op right l) notices
      (fun n notices' => ∃ told, Reduces left op right l n told ∧ notices' = notices ++ told)
      fun _ _ => True := by
  unfold operation
  split
  · exact ints_reduces notices
  · exact floats_reduces notices
  · next a p y q =>
    cases hx : promote? a with
    | none => exact .bind (.ok rfl (.pure ⟨_, .beyondLeft hx, rfl⟩))
    | some x =>
      refine (floats_reduces notices).mono ?_ fun _ _ h => h
      rintro n notices' ⟨told, hreduces, rfl⟩
      exact ⟨told, .promoteLeft hx hreduces, rfl⟩
  · next x p b q =>
    cases hy : promote? b with
    | none => exact .bind (.ok rfl (.pure ⟨_, .beyondRight hy, rfl⟩))
    | some y =>
      refine (floats_reduces notices).mono ?_ fun _ _ h => h
      rintro n notices' ⟨told, hreduces, rfl⟩
      exact ⟨told, .promoteRight hy hreduces, rfl⟩
  · next hii hff hif hfi =>
    refine .pure ⟨[], .kept (Bool.eq_false_iff.2 fun hboth => ?_), (List.append_nil _).symm⟩
    obtain ⟨hl, hr⟩ := Bool.and_eq_true_iff.1 hboth
    obtain ⟨a, p, rfl⟩ | ⟨x, p, rfl⟩ := Node.isNumeral_iff.1 hl
    · obtain ⟨b, q, rfl⟩ | ⟨y, q, rfl⟩ := Node.isNumeral_iff.1 hr
      · exact hii _ _ _ _ rfl rfl
      · exact hif _ _ _ _ rfl rfl
    · obtain ⟨b, q, rfl⟩ | ⟨y, q, rfl⟩ := Node.isNumeral_iff.1 hr
      · exact hfi _ _ _ _ rfl rfl
      · exact hff _ _ _ _ rfl rfl

/-! ## Trees -/

theorem Folds.fold_eq (h : Folds n n' told) (notices : List Notice) :
    fold n notices = .ok n' (notices ++ told) := by
  induction h generalizing notices with
  | @untouched n h =>
    rw [List.append_nil]
    cases n with
    | int | float | string | var | assign | ret | block => rfl
    | binary | ifThen | ifElse | forLoop | whileLoop | retValue | bare => cases h
  | binary _ _ hreduces ihl ihr =>
    rw [fold, bind_of_ok (ihl notices), bind_of_ok (ihr _), hreduces.operation, List.append_assoc,
      List.append_assoc]
  | ifThen _ _ ihc iht =>
    rw [fold, bind_of_ok (ihc notices), bind_of_ok (iht _), List.append_assoc]
    rfl
  | ifElse _ _ _ ihc iht ihe =>
    rw [fold, bind_of_ok (ihc notices), bind_of_ok (iht _), bind_of_ok (ihe _), List.append_assoc,
      List.append_assoc]
    rfl
  | forLoop _ ihb | whileLoop _ ihb =>
    rw [fold, bind_of_ok (ihb notices)]
    rfl
  | retValue _ ih =>
    rw [fold, bind_of_ok (ih notices)]
    rfl

theorem fold_folds (n : Node) (notices : List Notice) :
    Meets (fold n) notices
      (fun n' notices' => ∃ told, Folds n n' told ∧ notices' = notices ++ told)
      fun _ _ => True := by
  induction n generalizing notices with
  | int | float | string | var | assign | ret | block =>
    exact .pure ⟨[], .untouched rfl, (List.append_nil _).symm⟩
  | bare l => exact .throw trivial
  | binary left op right l ihl ihr =>
    rw [fold]
    refine (ihl notices).andThen ?_ fun _ _ h => h
    rintro left' - ⟨ts, hl, rfl⟩
    refine (ihr _).andThen ?_ fun _ _ h => h
    rintro right' - ⟨ts', hr, rfl⟩
    refine (operation_reduces left' op right' l _).mono ?_ fun _ _ h => h
    rintro n' - ⟨ts'', hreduces, rfl⟩
    exact ⟨_, .binary hl hr hreduces, by simp only [List.append_assoc]⟩
  | ifThen c t l ihc iht =>
    rw [fold]
    refine (ihc notices).andThen ?_ fun _ _ h => h
    rintro c' - ⟨ts, hc, rfl⟩
    refine (iht _).andThen ?_ fun _ _ h => h
    rintro t' - ⟨ts', ht, rfl⟩
    exact .pure ⟨_, .ifThen hc ht, List.append_assoc ..⟩
  | ifElse c t e l ihc iht ihe =>
    rw [fold]
    refine (ihc notices).andThen ?_ fun _ _ h => h
    rintro c' - ⟨ts, hc, rfl⟩
    refine (iht _).andThen ?_ fun _ _ h => h
    rintro t' - ⟨ts', ht, rfl⟩
    refine (ihe _).andThen ?_ fun _ _ h => h
    rintro e' - ⟨ts'', he, rfl⟩
    exact .pure ⟨_, .ifElse hc ht he, by simp only [List.append_assoc]⟩
  | forLoop i c u b l _ _ _ ihb =>
    rw [fold]
    refine (ihb notices).andThen ?_ fun _ _ h => h
    rintro b' - ⟨ts, hb, rfl⟩
    exact .pure ⟨_, .forLoop hb, rfl⟩
  | whileLoop c b l _ ihb =>
    rw [fold]
    refine (ihb notices).andThen ?_ fun _ _ h => h
    rintro b' - ⟨ts, hb, rfl⟩
    exact .pure ⟨_, .whileLoop hb, rfl⟩
  | retValue e l ih =>
    rw [fold]
    refine (ih notices).andThen ?_ fun _ _ h => h
    rintro e' - ⟨ts, he, rfl⟩
    exact .pure ⟨_, .retValue he, rfl⟩

/-- A tree is folded to one tree only. -/
theorem Folds.unique {told' : List Notice} {n'' : Node} (h : Folds n n' told)
    (h' : Folds n n'' told') : n' = n'' := by
  have hfold := (h.fold_eq []).symm.trans (h'.fold_eq [])
  cases hfold
  rfl

/-- **Folding succeeds with what the relation gives**, and only adds to the notices. -/
theorem fold_eq_ok_iff :
    fold n notices = .ok n' notices' ↔ ∃ told, Folds n n' told ∧ notices' = notices ++ told := by
  constructor
  · exact (fold_folds n notices).of_ok
  · rintro ⟨told, h, rfl⟩
    exact h.fold_eq notices

end Folding

end ThreeAddress
