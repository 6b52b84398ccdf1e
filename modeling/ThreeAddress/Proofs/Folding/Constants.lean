import ThreeAddress.Proofs.Folding.Relation
import ThreeAddress.Proofs.Literal.Written
import ThreeAddress.Proofs.Typing.Safety

/-!
# Constant arithmetic

What a tree of numerals and arithmetic operators comes to, worked out from the leaves up, the left
operand before the right one. Integers are exact and may have any size, and of an integer and a
float the integer becomes a float first.

* `IsQuotient`: the quotient that is rounded toward zero, said by its remainder.
* `Obstacle`: what the working out can come upon: a division of an integer by zero, a result that is
  too long to be written, an integer beyond the floats.
* `Evaluates`: the number that a tree comes to, or the first obstacle.
* `evaluates_unique`, `exists_evaluates`: a tree comes to one number, or upon one first obstacle.

**Theorem (`fold_constant`).** A tree that comes to a number is folded to the literal of it, at the
place of the tree, and no other tree is folded to a literal. If the first obstacle is a division by
zero, folding comes to the problem of that division.
-/

namespace ThreeAddress

/-! ## Trees -/

/-- The literal of a number. -/
def Number.literal : Number → Option Location → Node
  | .int n, l => .int n l
  | .float x, l => .float x l

/-- Whether an operator is one of arithmetic. -/
def Operator.isArithmetic : Operator → Bool
  | .add | .sub | .mul | .div => true
  | _ => false

/-- Trees of numerals and arithmetic operators, in which each integer can be written. -/
inductive Node.IsConstant : Node → Prop
  | int {n : Int} {l : Option Location} :
      n.natAbs < Nat.pow 10 Literal.digitLimit → IsConstant (.int n l)
  | float {x : Float} {l : Option Location} : IsConstant (.float x l)
  | binary {left right : Node} {op : Operator} {l : Option Location} :
      op.isArithmetic = true → IsConstant left → IsConstant right →
      IsConstant (.binary left op right l)

namespace Folding

/-! ## Integers -/

/-- The quotient that is rounded toward zero: the remainder is smaller than the divisor, and it is
zero or has the sign of the dividend. -/
def IsQuotient (a b q : Int) : Prop :=
  (a - q * b).natAbs < b.natAbs ∧
    (a - q * b = 0 ∨ 0 < a ∧ 0 < a - q * b ∨ a < 0 ∧ a - q * b < 0)

instance (a b q : Int) : Decidable (IsQuotient a b q) :=
  inferInstanceAs (Decidable ((a - q * b).natAbs < b.natAbs ∧
    (a - q * b = 0 ∨ 0 < a ∧ 0 < a - q * b ∨ a < 0 ∧ a - q * b < 0)))

theorem IsQuotient.unique {a b q q' : Int} (h : IsQuotient a b q) (h' : IsQuotient a b q') :
    q = q' := by
  obtain ⟨hlt, hsign⟩ := h
  obtain ⟨hlt', hsign'⟩ := h'
  -- Both remainders lie on one side of zero, so they differ by less than the divisor.
  have hbound : ((q - q') * b).natAbs < b.natAbs := by
    have hdiff : (q - q') * b = (a - q' * b) - (a - q * b) := by
      rw [Int.sub_mul]
      omega
    rw [hdiff]
    omega
  rw [Int.natAbs_mul] at hbound
  have hzero : (q - q').natAbs = 0 := by
    by_contra hne
    exact Nat.not_lt.2 (Nat.le_mul_of_pos_left _ (Nat.pos_of_ne_zero hne)) hbound
  omega

theorem isQuotient_tdiv {a b : Int} (hb : b ≠ 0) : IsQuotient a b (a.tdiv b) := by
  have hrest : a - a.tdiv b * b = a.tmod b := by rw [Int.tmod_def, Int.mul_comm]
  have hlt := Nat.mod_lt a.natAbs (Int.natAbs_pos.2 hb)
  rw [← Int.natAbs_tmod] at hlt
  rw [IsQuotient, hrest]
  refine ⟨hlt, ?_⟩
  rcases Int.lt_trichotomy a 0 with ha | rfl | ha
  · have hsign := Int.tmod_nonneg b (Int.neg_nonneg_of_nonpos (Int.le_of_lt ha))
    rw [Int.neg_tmod] at hsign
    omega
  · exact .inl (Int.zero_tmod b)
  · have hsign := Int.tmod_nonneg b (Int.le_of_lt ha)
    omega

/-- The exact result of an operation on integers. -/
inductive IntResult : Operator → Int → Int → Int → Prop
  | add {a b : Int} : IntResult .add a b (a + b)
  | sub {a b : Int} : IntResult .sub a b (a - b)
  | mul {a b : Int} : IntResult .mul a b (a * b)
  | div {a b q : Int} : IsQuotient a b q → IntResult .div a b q

theorem not_isQuotient_zero {a q : Int} : ¬ IsQuotient a 0 q :=
  fun h => Nat.not_lt_zero _ h.1

/-- The result that folding works out is the exact one. -/
theorem intResult_iff {op : Operator} {a b c : Int} :
    IntResult op a b c ↔ ¬ (op = .div ∧ b = 0) ∧ intResult? op a b = some c := by
  constructor
  · intro h
    cases h with
    | add | sub | mul => exact ⟨nofun, rfl⟩
    | div hq =>
      have hb : b ≠ 0 := by
        rintro rfl
        exact not_isQuotient_zero hq
      exact ⟨fun h => hb h.2, congrArg some ((isQuotient_tdiv hb).unique hq)⟩
  · rintro ⟨hzero, h⟩
    cases op with
    | add => cases h; exact .add
    | sub => cases h; exact .sub
    | mul => cases h; exact .mul
    | div => cases h; exact .div (isQuotient_tdiv fun hb => hzero ⟨rfl, hb⟩)
    | eq | ne | lt | gt | le | ge | other => cases h

/-! ## Evaluation -/

/-- What keeps a tree from coming to a number. -/
inductive Obstacle where
  /-- The division of an integer by zero, at its place. -/
  | divisionByZero (dividend : Int) (location : Option Location)
  /-- An integer that is too long to be written. -/
  | tooLong
  /-- An integer that is to become a float, and is beyond the floats. -/
  | beyondFloats

/-- What a tree comes to: a number, or else its first obstacle. -/
inductive Evaluation where
  | number (a : Number)
  | stuck (o : Obstacle)

/-- What an operation on numbers comes to. -/
inductive Operates (l : Option Location) : Operator → Number → Number → Evaluation → Prop
  | ints {op : Operator} {a b c : Int} :
      IntResult op a b c → c.natAbs < Nat.pow 10 Literal.digitLimit →
      Operates l op (.int a) (.int b) (.number (.int c))
  | tooLong {op : Operator} {a b c : Int} :
      IntResult op a b c → Nat.pow 10 Literal.digitLimit ≤ c.natAbs →
      Operates l op (.int a) (.int b) (.stuck .tooLong)
  | divisionByZero {a : Int} :
      Operates l .div (.int a) (.int 0) (.stuck (.divisionByZero a l))
  | floats {op : Operator} {x y z : Float} :
      floatResult? op x y = some z → Operates l op (.float x) (.float y) (.number (.float z))
  | promoteLeft {op : Operator} {a : Int} {x y : Float} {e : Evaluation} :
      promote? a = some x → Operates l op (.float x) (.float y) e →
      Operates l op (.int a) (.float y) e
  | promoteRight {op : Operator} {b : Int} {x y : Float} {e : Evaluation} :
      promote? b = some y → Operates l op (.float x) (.float y) e →
      Operates l op (.float x) (.int b) e
  | beyondLeft {op : Operator} {a : Int} {y : Float} :
      promote? a = none → Operates l op (.int a) (.float y) (.stuck .beyondFloats)
  | beyondRight {op : Operator} {b : Int} {x : Float} :
      promote? b = none → Operates l op (.float x) (.int b) (.stuck .beyondFloats)

/-- What a tree comes to, from the leaves up and from left to right. -/
inductive Evaluates : Node → Evaluation → Prop
  | int {n : Int} {l : Option Location} : Evaluates (.int n l) (.number (.int n))
  | float {x : Float} {l : Option Location} : Evaluates (.float x l) (.number (.float x))
  | left {left right : Node} {op : Operator} {l : Option Location} {o : Obstacle} :
      Evaluates left (.stuck o) → Evaluates (.binary left op right l) (.stuck o)
  | right {left right : Node} {op : Operator} {l : Option Location} {a : Number} {o : Obstacle} :
      Evaluates left (.number a) → Evaluates right (.stuck o) →
      Evaluates (.binary left op right l) (.stuck o)
  | binary {left right : Node} {op : Operator} {l : Option Location} {a b : Number}
      {e : Evaluation} :
      Evaluates left (.number a) → Evaluates right (.number b) → Operates l op a b e →
      Evaluates (.binary left op right l) e

section Determinism

variable {op : Operator} {a b : Number} {l : Option Location} {n : Node} {e e' : Evaluation}

theorem IntResult.unique {a b c c' : Int} (h : IntResult op a b c) (h' : IntResult op a b c') :
    c = c' :=
  Option.some.inj ((intResult_iff.1 h).2.symm.trans (intResult_iff.1 h').2)

theorem Operates.unique (h : Operates l op a b e) (h' : Operates l op a b e') : e = e' := by
  induction h generalizing e' with
  | ints hc hshort =>
    cases h' with
    | ints hc' => rw [hc.unique hc']
    | tooLong hc' hlong => exact absurd (hc.unique hc' ▸ hshort) (Nat.not_lt.2 hlong)
    | divisionByZero => exact absurd ⟨rfl, rfl⟩ (intResult_iff.1 hc).1
  | tooLong hc hlong =>
    cases h' with
    | ints hc' hshort => exact absurd (hc.unique hc' ▸ hshort) (Nat.not_lt.2 hlong)
    | tooLong => rfl
    | divisionByZero => exact absurd ⟨rfl, rfl⟩ (intResult_iff.1 hc).1
  | divisionByZero =>
    cases h' with
    | ints hc | tooLong hc => exact absurd ⟨rfl, rfl⟩ (intResult_iff.1 hc).1
    | divisionByZero => rfl
  | floats hz =>
    cases h' with
    | floats hz' =>
      cases hz.symm.trans hz'
      rfl
  | promoteLeft hx _ ih =>
    cases h' with
    | promoteLeft hx' h' =>
      cases hx.symm.trans hx'
      exact ih h'
    | beyondLeft hx' => cases hx.symm.trans hx'
  | promoteRight hy _ ih =>
    cases h' with
    | promoteRight hy' h' =>
      cases hy.symm.trans hy'
      exact ih h'
    | beyondRight hy' => cases hy.symm.trans hy'
  | beyondLeft hx =>
    cases h' with
    | promoteLeft hx' => cases hx.symm.trans hx'
    | beyondLeft => rfl
  | beyondRight hy =>
    cases h' with
    | promoteRight hy' => cases hy.symm.trans hy'
    | beyondRight => rfl

/-- A tree comes to one thing only. -/
theorem evaluates_unique (h : Evaluates n e) (h' : Evaluates n e') : e = e' := by
  induction h generalizing e' with
  | int | float =>
    cases h'
    rfl
  | left _ ih =>
    cases h' with
    | left h' => exact ih h'
    | right h' | binary h' => cases ih h'
  | right _ _ ihl ihr =>
    cases h' with
    | left h' => cases ihl h'
    | right _ h' => exact ihr h'
    | binary _ h' => cases ihr h'
  | binary _ _ hop ihl ihr =>
    cases h' with
    | left h' => cases ihl h'
    | right _ h' => cases ihr h'
    | binary hl hr hop' =>
      cases ihl hl
      cases ihr hr
      exact hop.unique hop'

theorem floatResult?_of_isArithmetic (hop : op.isArithmetic = true) (x y : Float) :
    ∃ z, floatResult? op x y = some z := by
  cases op with
  | add | sub | mul | div => exact ⟨_, rfl⟩
  | eq | ne | lt | gt | le | ge | other => cases hop

theorem intResult?_of_isArithmetic (hop : op.isArithmetic = true) (a b : Int) :
    ∃ c, intResult? op a b = some c := by
  cases op with
  | add | sub | mul | div => exact ⟨_, rfl⟩
  | eq | ne | lt | gt | le | ge | other => cases hop

theorem exists_operates (hop : op.isArithmetic = true) (a b : Number) (l : Option Location) :
    ∃ e, Operates l op a b e := by
  have hfloats : ∀ x y, ∃ e, Operates l op (.float x) (.float y) e := fun x y =>
    (floatResult?_of_isArithmetic hop x y).imp' _ fun _ => .floats
  cases a with
  | int a =>
    cases b with
    | int b =>
      by_cases hzero : op = .div ∧ b = 0
      · obtain ⟨rfl, rfl⟩ := hzero
        exact ⟨_, .divisionByZero⟩
      · obtain ⟨c, hc⟩ := intResult?_of_isArithmetic hop a b
        have hresult := intResult_iff.2 ⟨hzero, hc⟩
        rcases Nat.lt_or_ge c.natAbs (Nat.pow 10 Literal.digitLimit) with hshort | hlong
        · exact ⟨_, .ints hresult hshort⟩
        · exact ⟨_, .tooLong hresult hlong⟩
    | float y =>
      cases hx : promote? a with
      | none => exact ⟨_, .beyondLeft hx⟩
      | some x => exact (hfloats x y).imp fun _ => .promoteLeft hx
  | float x =>
    cases b with
    | int b =>
      cases hy : promote? b with
      | none => exact ⟨_, .beyondRight hy⟩
      | some y => exact (hfloats x y).imp fun _ => .promoteRight hy
    | float y => exact hfloats x y

/-- A constant tree comes to something. -/
theorem exists_evaluates (hn : n.IsConstant) : ∃ e, Evaluates n e := by
  induction hn with
  | int => exact ⟨_, .int⟩
  | float => exact ⟨_, .float⟩
  | @binary left right op l hop _ _ ihl ihr =>
    obtain ⟨e, hl⟩ := ihl
    cases e with
    | stuck o => exact ⟨_, .left hl⟩
    | number a =>
      obtain ⟨e, hr⟩ := ihr
      cases e with
      | stuck o => exact ⟨_, .right hl hr⟩
      | number b => exact (exists_operates hop a b l).imp fun _ => .binary hl hr

end Determinism

/-! ## Sizes -/

/-- The integer of a result, or of the dividend of a division by zero, can be written. -/
def Evaluation.Short : Evaluation → Prop
  | .number (.int n) | .stuck (.divisionByZero n _) => n.natAbs < Nat.pow 10 Literal.digitLimit
  | _ => True

section Sizes

variable {op : Operator} {a b : Number} {l : Option Location} {n : Node} {e : Evaluation}

theorem Operates.short (h : Operates l op a b e) (ha : (Evaluation.number a).Short) : e.Short := by
  induction h with
  | ints _ hshort => exact hshort
  | divisionByZero => exact ha
  | promoteLeft _ _ ih | promoteRight _ _ ih => exact ih trivial
  | tooLong | floats | beyondLeft | beyondRight => exact trivial

theorem Evaluates.short (h : Evaluates n e) (hn : n.IsConstant) : e.Short := by
  induction h with
  | int =>
    cases hn with
    | int hshort => exact hshort
  | float => exact trivial
  | left _ ih =>
    cases hn with
    | binary _ hl _ => exact ih hl
  | right _ _ _ ih =>
    cases hn with
    | binary _ _ hr => exact ih hr
  | binary _ _ hop ih _ =>
    cases hn with
    | binary _ hl _ => exact hop.short (ih hl)

end Sizes

/-! ## Folding -/

section Results

variable {op : Operator} {a b c : Number} {l : Option Location} {n n' : Node} {e : Evaluation}
  {o : Obstacle} {told : List Notice}

theorem isNumeral_literal (a : Number) (l : Option Location) : (a.literal l).isNumeral = true := by
  cases a <;> rfl

theorem literal_injective (h : a.literal l = b.literal l) : a = b := by
  cases a <;> cases b <;> cases h <;> rfl

/-- An operation that comes to a number is carried out. -/
theorem Operates.reduces (h : Operates l op a b e) (he : e = .number c) (p q : Option Location) :
    ∃ told, Reduces (a.literal p) op (b.literal q) l (c.literal l) told := by
  induction h with
  | ints hresult hshort =>
    cases he
    obtain ⟨hzero, hresult⟩ := intResult_iff.1 hresult
    exact ⟨_, .ints hzero hresult (Literal.hasText_iff.2 hshort)⟩
  | floats hz =>
    cases he
    exact ⟨_, .floats hz⟩
  | promoteLeft hx _ ih => exact (ih he).imp fun _ => .promoteLeft hx
  | promoteRight hy _ ih => exact (ih he).imp fun _ => .promoteRight hy
  | tooLong | divisionByZero | beyondLeft | beyondRight => cases he

/-- A tree that comes to a number is folded to its literal. -/
theorem Evaluates.folds (h : Evaluates n e) (he : e = .number c) :
    ∃ told, Folds n (c.literal n.location) told := by
  induction h generalizing c with
  | int | float =>
    cases he
    exact ⟨[], .untouched rfl⟩
  | left | right => cases he
  | binary _ _ hop ihl ihr =>
    obtain ⟨ts, hl⟩ := ihl rfl
    obtain ⟨ts', hr⟩ := ihr rfl
    obtain ⟨ts'', hreduces⟩ := hop.reduces he _ _
    exact ⟨_, .binary hl hr hreduces⟩

/-- An operation that does not come to a number is kept. -/
theorem Operates.not_isNumeral {p q : Option Location} (h : Operates l op a b (.stuck o))
    (hreduces : Reduces (a.literal p) op (b.literal q) l n told) : n.isNumeral = false := by
  cases h with
  | tooLong hresult hlong =>
    cases hreduces with
    | ints _ hresult' htext =>
      cases (intResult_iff.1 hresult).2.symm.trans hresult'
      exact absurd (Literal.hasText_iff.1 htext) (Nat.not_lt.2 hlong)
    | tooLong | intsKept | kept => rfl
  | divisionByZero =>
    cases hreduces with
    | ints hzero => exact absurd ⟨rfl, rfl⟩ hzero
    | tooLong | intsKept | kept => rfl
  | promoteLeft _ h | promoteRight _ h => cases h
  | beyondLeft hx =>
    cases hreduces with
    | promoteLeft hx' => cases hx.symm.trans hx'
    | beyondLeft | kept => rfl
  | beyondRight hy =>
    cases hreduces with
    | promoteRight hy' => cases hy.symm.trans hy'
    | beyondRight | kept => rfl

/-- So is an operation with an operand that is no numeral. -/
theorem Reduces.not_isNumeral {left right : Node} (h : Reduces left op right l n told)
    (hoperands : left.isNumeral = false ∨ right.isNumeral = false) : n.isNumeral = false := by
  cases h with
  | kept => rfl
  | ints | tooLong | intsKept | floats | floatsKept | promoteLeft | promoteRight | beyondLeft
  | beyondRight => rcases hoperands with h | h <;> cases h

/-- A tree that comes upon an obstacle is folded to no literal. -/
theorem Evaluates.not_isNumeral (h : Evaluates n e) (he : e = .stuck o) (hfolds : Folds n n' told) :
    n'.isNumeral = false := by
  induction h generalizing n' told with
  | int | float => cases he
  | left _ ih =>
    cases hfolds with
    | untouched hn => cases hn
    | binary hl _ hreduces => exact hreduces.not_isNumeral (.inl (ih he hl))
  | right _ _ _ ih =>
    cases hfolds with
    | untouched hn => cases hn
    | binary _ hr hreduces => exact hreduces.not_isNumeral (.inr (ih he hr))
  | binary hleft hright hop _ _ =>
    cases hfolds with
    | untouched hn => cases hn
    | binary hl hr hreduces =>
      obtain ⟨_, hl'⟩ := hleft.folds rfl
      obtain ⟨_, hr'⟩ := hright.folds rfl
      rw [hl.unique hl', hr.unique hr'] at hreduces
      subst he
      exact hop.not_isNumeral hreduces

/-- A division by zero is a problem. -/
theorem Operates.problem {dividend : Int} {place : Option Location}
    (h : Operates l op a b (.stuck (.divisionByZero dividend place))) (p q : Option Location)
    (notices : List Notice) :
    operation (a.literal p) op (b.literal q) l notices =
      .error (.problem ⟨.divisionByZero dividend 0, place, none⟩) notices := by
  cases h with
  | divisionByZero => rfl
  | promoteLeft _ h | promoteRight _ h => cases h

/-- The first obstacle is a problem if it is a division by zero. -/
theorem Evaluates.problem {dividend : Int} {place : Option Location} (h : Evaluates n e)
    (he : e = .stuck (.divisionByZero dividend place)) (notices : List Notice) :
    ∃ told, fold n notices =
      .error (.problem ⟨.divisionByZero dividend 0, place, none⟩) (notices ++ told) := by
  induction h generalizing notices with
  | int | float => cases he
  | left _ ih =>
    obtain ⟨told, hl⟩ := ih he notices
    exact ⟨told, by rw [fold, bind_of_error hl]⟩
  | right hleft _ _ ih =>
    obtain ⟨ts, hl⟩ := hleft.folds rfl
    obtain ⟨ts', hr⟩ := ih he (notices ++ ts)
    refine ⟨ts ++ ts', ?_⟩
    rw [fold, bind_of_ok (hl.fold_eq notices), bind_of_error hr, List.append_assoc]
  | binary hleft hright hop _ _ =>
    obtain ⟨ts, hl⟩ := hleft.folds rfl
    obtain ⟨ts', hr⟩ := hright.folds rfl
    subst he
    refine ⟨ts ++ ts', ?_⟩
    rw [fold, bind_of_ok (hl.fold_eq notices), bind_of_ok (hr.fold_eq _), hop.problem,
      List.append_assoc]

end Results

/-- **Constant arithmetic is folded completely**, and a division by zero is found. -/
theorem fold_constant {n : Node} (hn : n.IsConstant) :
    (∃! e, Evaluates n e) ∧
      (∀ a notices, Evaluates n (.number a) ↔
        ∃ told, fold n notices = .ok (a.literal n.location) (notices ++ told)) ∧
      ∀ dividend place, Evaluates n (.stuck (.divisionByZero dividend place)) →
        dividend.natAbs < Nat.pow 10 Literal.digitLimit ∧ ∀ notices, ∃ told, fold n notices =
          .error (.problem ⟨.divisionByZero dividend 0, place, none⟩) (notices ++ told) := by
  obtain ⟨e, he⟩ := exists_evaluates hn
  refine ⟨⟨e, he, fun e' he' => evaluates_unique he' he⟩, fun a notices => ⟨fun h => ?_, ?_⟩,
    fun dividend place h => ⟨h.short hn, h.problem rfl⟩⟩
  · exact (h.folds rfl).imp fun _ hfolds => hfolds.fold_eq notices
  · rintro ⟨told, hok⟩
    obtain ⟨_, hfolds, -⟩ := fold_eq_ok_iff.1 hok
    cases e with
    | stuck o =>
      have hnumeral := he.not_isNumeral rfl hfolds
      rw [isNumeral_literal] at hnumeral
      cases hnumeral
    | number b =>
      obtain ⟨_, hfolds'⟩ := he.folds rfl
      rw [literal_injective (hfolds.unique hfolds')]
      exact he

theorem lt_pow_of_lt {m b k : Nat} (h : m < b) (hk : k ≠ 0) : m < Nat.pow b k :=
  Nat.lt_of_lt_of_le h (Nat.le_self_pow hk b)

/-- `-7 / 2 * 0.5` is `-1.5`, and `1 + 7 / 0` has no value. -/
theorem quotients_folded :
    let seven : Node := .int (-7) none
    let quotient : Node := .binary seven .div (.int 2 none) none
    let product : Node := .binary quotient .mul (.float 0.5 none) none
    let place : Option Location := some ⟨"", 1, 5, 4⟩
    let sum : Node := .binary (.int 1 none) .add (.binary seven .div (.int 0 none) place) none
    (product.IsConstant ∧ ∃ told, fold product [] = .ok (.float (-1.5) none) told) ∧
      sum.IsConstant ∧ ∃ told, fold sum [] =
        .error (.problem ⟨.divisionByZero (-7) 0, place, none⟩) told := by
  intro seven quotient product place sum
  have hshort : ∀ {n : Int}, n.natAbs < 10 → n.natAbs < Nat.pow 10 Literal.digitLimit := fun h =>
    lt_pow_of_lt h (by decide)
  have hproduct : product.IsConstant :=
    .binary rfl (.binary rfl (.int (hshort (by decide))) (.int (hshort (by decide)))) .float
  have hsum : sum.IsConstant := .binary rfl (.int (hshort (by decide)))
    (.binary rfl (.int (hshort (by decide))) (.int (hshort (by decide))))
  have hquotient : Operates none .div (.int (-7)) (.int 2) (.number (.int (-3))) :=
    .ints (.div (by decide)) (hshort (by decide))
  have hfloat : promote? (-3) = some (-3.0) := by decide
  have hvalue : Evaluates product (.number (.float (-1.5))) :=
    .binary (.binary .int .int hquotient) .float (.promoteLeft hfloat (.floats (by decide)))
  have hobstacle : Evaluates sum (.stuck (.divisionByZero (-7) place)) :=
    .right .int (.binary .int .int .divisionByZero)
  refine ⟨⟨hproduct, ?_⟩, hsum, ?_⟩
  · exact ((fold_constant hproduct).2.1 _ []).1 hvalue
  · exact ((fold_constant hsum).2.2 _ _ hobstacle).2 []

end Folding

end ThreeAddress
