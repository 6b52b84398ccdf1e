import ThreeAddress.Folding
import ThreeAddress.Proofs.Execution.Equivalence
import ThreeAddress.Proofs.Steps

/-!
# Folding preserves meaning

Folding is right for every interpretation that has the arithmetic of the language. `arithmetic`
builds such an interpretation from any other one, which says what all other operations do.

* Integers are added, subtracted and multiplied exactly. Division rounds toward zero and fails if
  the divisor is zero.
* Floats are added, subtracted, multiplied and divided in double precision.
* Of an integer and a float the integer becomes a float first, under every operator, unless it is
  beyond the floats.

**Theorem (`fold_preserves_meaning`).** What a tree is folded to has its value and its runs, in
every store. A tree that cannot be folded has a value in none.

The proof follows the tree. An operand that has been folded has the value of the operand, so all
that is left is one operation on two folded operands (`operation_meets`).
-/

namespace ThreeAddress

variable {F : Type}

/-! ## Arithmetic -/

namespace Interpretation

variable (M : Interpretation F) (byZero : F)

/-- An operation on integers. -/
def operateInts (op : Operator) (a b : Int) : Except F Value :=
  match op with
  | .add => .ok (.int (a + b))
  | .sub => .ok (.int (a - b))
  | .mul => .ok (.int (a * b))
  | .div => if b = 0 then .error byZero else .ok (.int (a.tdiv b))
  | op => M.operate op (.int a) (.int b)

/-- An operation on floats. -/
def operateFloats (op : Operator) (a b : Float) : Except F Value :=
  match op with
  | .add => .ok (.float (a + b))
  | .sub => .ok (.float (a - b))
  | .mul => .ok (.float (a * b))
  | .div => .ok (.float (a / b))
  | op => M.operate op (.float a) (.float b)

/-- The interpretation with the arithmetic of the language, where a division of integers by zero
fails in the given way. -/
def arithmetic : Interpretation F where
  operate op v w :=
    match v, w with
    | .int a, .int b => M.operateInts byZero op a b
    | .float a, .float b => M.operateFloats op a b
    | .int a, .float b =>
      match Folding.promote? a with
      | some x => M.operateFloats op x b
      | none => M.operate op (.int a) (.float b)
    | .float a, .int b =>
      match Folding.promote? b with
      | some x => M.operateFloats op a x
      | none => M.operate op (.float a) (.int b)
    | v, w => M.operate op v w
  isZero := M.isZero
  unset := M.unset
  meaningless := M.meaningless

end Interpretation

/-- A notice changes nothing but the notices. -/
theorem Meets.tell {n : Notice} {notices : List Notice} {good : Unit → List Notice → Prop}
    {bad : Failure → List Notice → Prop} (h : good () (notices ++ [n])) :
    Meets (Work.tell n) notices good bad := h

namespace Folding

variable (M : Interpretation F) (byZero : F)

/-! ## One operation -/

/-- The node is no command, and it has the value in every store. -/
def HasResult (result : Store → Except F Value) (n : Node) : Prop :=
  n.isCommand = false ∧ ∀ σ, eval (M.arithmetic byZero) σ n = result σ

/-- The result is a failure in every store. -/
def NoResult (result : Store → Except F Value) : Prop := ∀ σ v, result σ ≠ .ok v

variable {M byZero}

theorem HasResult.binary_int {a b : Int} {op : Operator} {p q l : Option Location} :
    HasResult M byZero (fun _ => M.operateInts byZero op a b)
      (.binary (.int a p) op (.int b q) l) :=
  ⟨rfl, fun _ => rfl⟩

theorem HasResult.binary_float {x y : Float} {op : Operator} {p q l : Option Location} :
    HasResult M byZero (fun _ => M.operateFloats op x y)
      (.binary (.float x p) op (.float y q) l) :=
  ⟨rfl, fun _ => rfl⟩

theorem ints_meets {a b : Int} {op : Operator} {l : Option Location} {kept : Node}
    (hkept : HasResult M byZero (fun _ => M.operateInts byZero op a b) kept)
    (notices : List Notice) :
    Meets (ints a op b l kept) notices
      (fun n _ => HasResult M byZero (fun _ => M.operateInts byZero op a b) n)
      (fun _ _ => NoResult fun _ => M.operateInts byZero op a b) := by
  unfold ints
  by_cases hzero : op = .div ∧ b = 0
  · obtain ⟨rfl, rfl⟩ := hzero
    exact .throw nofun
  · rw [if_neg hzero]
    cases hresult : intResult? op a b with
    | none => exact .pure hkept
    | some result =>
      have hvalue : M.operateInts byZero op a b = .ok (.int result) := by
        cases op <;> cases hresult <;> try rfl
        have hb : b ≠ 0 := fun hb => hzero ⟨rfl, hb⟩
        simp only [Interpretation.operateInts, if_neg hb]
      dsimp only
      generalize Literal.hasText result = printable
      cases printable with
      | true => exact .bind (.tell (.pure ⟨rfl, fun _ => hvalue.symm⟩))
      | false => exact .bind (.tell (.pure hkept))

theorem floats_meets {x y : Float} {op : Operator} {l : Option Location} {kept : Node}
    (hkept : HasResult M byZero (fun _ => M.operateFloats op x y) kept) (notices : List Notice) :
    Meets (floats x op y l kept) notices
      (fun n _ => HasResult M byZero (fun _ => M.operateFloats op x y) n)
      (fun _ _ => NoResult fun _ => M.operateFloats op x y) := by
  unfold floats
  cases hresult : floatResult? op x y with
  | none => exact .pure hkept
  | some result =>
    have hvalue : M.operateFloats op x y = .ok (.float result) := by
      cases op <;> cases hresult <;> rfl
    exact .bind (.tell (.pure ⟨rfl, fun _ => hvalue.symm⟩))

variable (M byZero) in
/-- **One operation on folded operands.** An integer that becomes a float does so in the operand
that is kept as well. -/
theorem operation_meets (left : Node) (op : Operator) (right : Node) (l : Option Location)
    (notices : List Notice) :
    Meets (operation left op right l) notices
      (fun n _ => HasResult M byZero
        (fun σ => eval (M.arithmetic byZero) σ (.binary left op right l)) n)
      (fun _ _ => NoResult fun σ => eval (M.arithmetic byZero) σ (.binary left op right l)) := by
  unfold operation
  split
  · exact ints_meets .binary_int notices
  · exact floats_meets .binary_float notices
  · next a place b q =>
    cases hx : promote? a with
    | none => exact .bind (.tell (.pure ⟨rfl, fun _ => rfl⟩))
    | some x =>
      have hvalue : ∀ σ, eval (M.arithmetic byZero) σ (.binary (.int a place) op (.float b q) l) =
          M.operateFloats op x b := by
        intro σ
        show (match promote? a with
          | some x => M.operateFloats op x b
          | none => M.operate op (.int a) (.float b)) = _
        rw [hx]
      simp only [hvalue]
      exact floats_meets .binary_float notices
  · next a p b place =>
    cases hx : promote? b with
    | none => exact .bind (.tell (.pure ⟨rfl, fun _ => rfl⟩))
    | some x =>
      have hvalue : ∀ σ, eval (M.arithmetic byZero) σ (.binary (.float a p) op (.int b place) l) =
          M.operateFloats op a x := by
        intro σ
        show (match promote? b with
          | some x => M.operateFloats op a x
          | none => M.operate op (.float a) (.int b)) = _
        rw [hx]
      simp only [hvalue]
      exact floats_meets .binary_float notices
  · exact .pure ⟨rfl, fun _ => rfl⟩

/-! ## Trees -/

variable (M byZero)

/-- A binary operation has a value only if both its operands have one. -/
theorem NoResult.binary {left right : Node} {op : Operator} {l : Option Location}
    (h : NoResult (fun σ => eval M σ left) ∨ NoResult (fun σ => eval M σ right)) :
    NoResult fun σ => eval M σ (.binary left op right l) := by
  intro σ v hv
  simp only [eval] at hv
  rcases h with h | h
  · cases hl : eval M σ left with
    | ok w => exact h σ w hl
    | error f =>
      rw [hl] at hv
      cases hv
  · cases hl : eval M σ left with
    | ok w =>
      cases hr : eval M σ right with
      | ok w => exact h σ w hr
      | error f =>
        rw [hl, hr] at hv
        cases hv
    | error f =>
      rw [hl] at hv
      cases hv

/-- What a tree is folded to does the same, and a tree that cannot be folded has no value. -/
def Preserved (n : Node) : Prop :=
  ∀ notices, Meets (fold n) notices (fun n' _ => Equivalent (M.arithmetic byZero) n' n)
    (fun _ _ => NoResult fun σ => eval (M.arithmetic byZero) σ n)

/-- Only an operation on expressions comes to a problem, so of statements there is nothing to say in
that case: they have no value anyway. -/
theorem fold_preserved (n : Node) : Preserved M byZero n := by
  induction n with
  | binary left op right l ihl ihr =>
    intro notices
    rw [fold]
    refine (ihl notices).andThen (fun left' notices hl => ?_) fun _ _ hno => ?_
    · refine (ihr notices).andThen (fun right' notices hr => ?_) fun _ _ hno => ?_
      · have hvalue : ∀ σ, eval (M.arithmetic byZero) σ (.binary left' op right' l) =
            eval (M.arithmetic byZero) σ (.binary left op right l) := by
          intro σ
          simp only [eval, hl.value, hr.value]
        have hoperation := operation_meets M byZero left' op right' l notices
        refine hoperation.mono (fun n' _ h => ?_) fun _ _ h => ?_
        · exact .of_value h.1 rfl fun σ => (h.2 σ).trans (hvalue σ)
        · exact fun σ v hv => h σ v ((hvalue σ).trans hv)
      · exact .binary _ (.inr hno)
    · exact .binary _ (.inl hno)
  | int | float | string | var | assign | ret | block => exact fun _ => .pure (.refl _)
  | ifThen c t l ihc iht =>
    intro notices
    rw [fold]
    refine (ihc notices).andThen (fun c' notices hc => ?_) fun _ _ _ => nofun
    refine (iht notices).andThen (fun t' notices ht => ?_) fun _ _ _ => nofun
    exact .pure (hc.ifThen ht)
  | ifElse c t e l ihc iht ihe =>
    intro notices
    rw [fold]
    refine (ihc notices).andThen (fun c' notices hc => ?_) fun _ _ _ => nofun
    refine (iht notices).andThen (fun t' notices ht => ?_) fun _ _ _ => nofun
    refine (ihe notices).andThen (fun e' notices he => ?_) fun _ _ _ => nofun
    exact .pure (hc.ifElse ht he)
  | forLoop i c u b l _ _ _ ihb =>
    intro notices
    rw [fold]
    refine (ihb notices).andThen (fun b' notices hb => ?_) fun _ _ _ => nofun
    exact .pure hb.forLoop
  | whileLoop c b l _ ihb =>
    intro notices
    rw [fold]
    refine (ihb notices).andThen (fun b' notices hb => ?_) fun _ _ _ => nofun
    exact .pure ((Equivalent.refl c).whileLoop hb)
  | retValue e l ih =>
    intro notices
    rw [fold]
    refine (ih notices).andThen (fun e' notices he => ?_) fun _ _ _ => nofun
    exact .pure he.retValue
  | bare l => exact fun _ => .throw nofun

/-- **Folding preserves meaning.** -/
theorem fold_preserves_meaning {F : Type} (M : Interpretation F) (byZero : F) (n : Node)
    (notices : List Notice) :
    match fold n notices with
    | .ok n' _ =>
      (∀ σ, eval (M.arithmetic byZero) σ n' = eval (M.arithmetic byZero) σ n) ∧
        ∀ σ o τ, Exec (M.arithmetic byZero) n' σ o τ ↔ Exec (M.arithmetic byZero) n σ o τ
    | .error _ _ => ∀ σ v, eval (M.arithmetic byZero) σ n ≠ .ok v := by
  have hfold := fold_preserved M byZero n notices
  unfold Meets at hfold
  cases h : fold n notices with
  | ok n' notices' =>
    rw [h] at hfold
    exact ⟨hfold.value, fun _ _ _ => hfold.exec_iff⟩
  | error e notices' =>
    rw [h] at hfold
    exact hfold

end Folding

end ThreeAddress
