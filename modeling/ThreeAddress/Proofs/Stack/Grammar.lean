import ThreeAddress.Proofs.Stack.Settling
import ThreeAddress.Stack.Grammar

/-!
# The parser on a limited stack

The parser settles: with enough room it reads what it reads without a limit, and in less room it
gives up.

* `Settled`: a parsing step settles on every reader of a size, and leaves one that is no larger.
* `settledWithin`, `settledStatements`: the rules of the grammar settle. Within a budget of `n`, an
  expression needs no more than `2 * n` calls.
* `program_settles`: what a program needs is bounded by its number of tokens.
-/

namespace ThreeAddress.Grammar

open Parse

variable {size bound n : Nat} {α β : Type} {x x' : Nat → Parse α} {y y' : Parse α}
  {f : Nat → α → Parse β} {g : α → Parse β}

/-! ## Steps -/

/-- On readers with no more than `size` tokens in reach, the step `x` in a room settles to `y`, and
`y` leaves no more than `size` tokens in reach. -/
def Settled (size bound : Nat) (x : Nat → Parse α) (y : Parse α) : Prop :=
  ∀ r : Reader, r.size ≤ size →
    Settles (·.cause = .tooDeep) bound x y r ∧ ∀ a r', y r = .ok a r' → r'.size ≤ size

namespace Settled

theorem mono {k : Nat} (h : Settled size k x y) (hk : k ≤ bound) : Settled size bound x y :=
  fun r hr => ⟨(h r hr).1.mono hk, (h r hr).2⟩

theorem pure (a : α) : Settled size bound (fun _ => Pure.pure a) (Pure.pure a : Parse α) := by
  refine fun r hr => ⟨.const _ r, fun _ r' h => ?_⟩
  cases h
  exact hr

theorem error (p : Reader → Problem) :
    Settled size bound (fun _ r => .error (p r) r) (fun r => .error (p r) r : Parse α) :=
  fun r _ => ⟨.const _ r, fun _ _ h => nomatch h⟩

theorem reject (cause : Reader → Cause) :
    Settled size bound (fun _ => Parse.reject cause) (Parse.reject cause : Parse α) :=
  error _

theorem bind (hx : Settled size bound x y)
    (hf : ∀ a, Settled size bound (fun room => f room a) (g a)) :
    Settled size bound (fun room => x room >>= f room) (y >>= g) := by
  intro r hr
  obtain ⟨hsettles, hsize⟩ := hx r hr
  refine ⟨hsettles.bind fun a r' h => (hf a r' (hsize a r' h)).1, fun b r' h => ?_⟩
  obtain ⟨a, s, hy, hg⟩ := bind_eq_ok_iff.1 h
  exact (hf a s (hsize a s hy)).2 b r' hg

theorem look {f : Nat → Reader → Parse β} {g : Reader → Parse β}
    (h : ∀ r, Settled size bound (fun room => f room r) (g r)) :
    Settled size bound (fun room => get >>= f room) (get >>= g) :=
  fun r hr => h r r hr

theorem kind {f : Nat → Kind → Parse β} {g : Kind → Parse β}
    (h : ∀ k, Settled size bound (fun room => f room k) (g k)) :
    Settled size bound (fun room => Parse.kind >>= f room) (Parse.kind >>= g) :=
  fun r hr => h _ r hr

theorem here {f : Nat → Option Location → Parse β} {g : Option Location → Parse β}
    (h : ∀ l, Settled size bound (fun room => f room l) (g l)) :
    Settled size bound (fun room => Parse.here >>= f room) (Parse.here >>= g) :=
  fun r hr => h _ r hr

theorem advance : Settled size bound (fun _ => Parse.advance) Parse.advance := by
  refine fun r hr => ⟨.const _ r, fun t r' h => ?_⟩
  obtain ⟨current, ⟨upcoming, fault⟩, lines⟩ := r
  unfold Parse.advance at h
  split at h
  · cases h
    exact hr
  · cases upcoming with
    | cons t ts =>
      cases h
      exact Nat.le_of_succ_le hr
    | nil =>
      cases fault with
      | some p => cases h
      | none =>
        cases h
        exact hr

theorem expect (k : Kind) : Settled size bound (fun _ => Parse.expect k) (Parse.expect k) := by
  refine .kind fun k' => ?_
  split
  · exact .advance
  · exact .reject _

/-- A rule that is called needs a call more. -/
theorem call (h : Settled size bound x y) :
    Settled size (bound + 1) (fun room => OnStack.call room x) y :=
  fun r hr => ⟨.enter ⟨_, _, rfl, rfl⟩ (h r hr).1, (h r hr).2⟩

/-! ## Expressions -/

theorem intLiteral (t : Token) :
    Settled size bound (fun _ => Grammar.intLiteral t) (Grammar.intLiteral t) := by
  unfold Grammar.intLiteral
  split
  · exact .bind .advance fun _ => .pure _
  · exact .reject _

theorem floatLiteral (t : Token) :
    Settled size bound (fun _ => Grammar.floatLiteral t) (Grammar.floatLiteral t) := by
  refine .bind .advance fun _ => ?_
  split
  · exact .pure _
  · exact .error _

theorem factor {x : Nat → Parse Node} {y : Parse Node} (h : Settled size bound x y) :
    Settled size bound (fun room => Grammar.factor (x room)) (Grammar.factor y) := by
  refine .look fun r => ?_
  dsimp only
  cases r.current.kind with
  | intLiteral => exact .intLiteral _
  | floatLiteral => exact .floatLiteral _
  | stringLiteral => exact .bind .advance fun _ => .pure _
  | identifier => exact .bind .advance fun _ => .pure _
  | leftParen => exact .bind .advance fun _ => h.bind fun _ => .bind (.expect _) fun _ => .pure _
  | _ => exact .reject _

end Settled

/-- The functions for expressions settle within a budget. -/
structure SettledWithin (size n : Nat) : Prop where
  expression : Settled size (2 * n) (fun room => OnStack.expressionWithin n room)
    (expressionWithin n)
  moreTerms : ∀ left, Settled size (2 * n) (fun room => OnStack.moreTermsWithin n room left)
    (moreTermsWithin n left)
  term : Settled size (2 * n) (fun room => OnStack.termWithin n room) (termWithin n)
  moreFactors : ∀ left, Settled size (2 * n) (fun room => OnStack.moreFactorsWithin n room left)
    (moreFactorsWithin n left)

theorem settledWithin (size n : Nat) : SettledWithin size n := by
  induction n with
  | zero =>
    refine ⟨?_, fun left => ?_, ?_, fun left => ?_⟩
    all_goals
      simp only [OnStack.expressionWithin, OnStack.moreTermsWithin, OnStack.termWithin,
        OnStack.moreFactorsWithin, expressionWithin, moreTermsWithin, termWithin,
        moreFactorsWithin]
      exact .reject _
  | succ n ih =>
    have hfactor : Settled size (2 * n + 1)
        (fun room => OnStack.call room fun room => factor (OnStack.expressionWithin n room))
        (factor (expressionWithin n)) :=
      .call (.factor ih.expression)
    refine ⟨?_, fun left => ?_, ?_, fun left => ?_⟩
    · rw [expressionWithin]
      simp only [OnStack.expressionWithin]
      refine .mono (k := 2 * n + 1) (.call ?_) (by omega)
      exact ih.term.bind ih.moreTerms
    · rw [moreTermsWithin]
      simp only [OnStack.moreTermsWithin]
      refine .mono (k := 2 * n) (.kind fun k => ?_) (by omega)
      split
      · exact .bind .advance fun op => ih.term.bind fun right => ih.moreTerms _
      · exact .pure _
    · rw [termWithin]
      simp only [OnStack.termWithin]
      refine .call (hfactor.bind fun left => ?_)
      exact (ih.moreFactors left).mono (by omega)
    · rw [moreFactorsWithin]
      simp only [OnStack.moreFactorsWithin]
      refine .mono (k := 2 * n + 1) (.kind fun k => ?_) (by omega)
      split
      · exact .bind .advance fun op => hfactor.bind fun right => (ih.moreFactors _).mono (by omega)
      · exact .pure _

theorem expression_settled (size : Nat) :
    Settled size (8 * (size + 1)) OnStack.expression expression := by
  intro r hr
  obtain ⟨hsettles, hsize⟩ := (settledWithin size (4 * (r.size + 1))).expression r hr
  have hexpression : expression r = expressionWithin (4 * (r.size + 1)) r := by rw [expression]
  refine ⟨(hsettles.mono (by omega)).congr (fun room => ?_) hexpression, fun e r' h => ?_⟩
  · rw [OnStack.expression]
  · exact hsize e r' (hexpression ▸ h)

/-! ## Statements -/

namespace Settled

variable {x b : Nat → Parse Node} {y c : Parse Node}

theorem condition (h : Settled size bound x y) :
    Settled size bound (fun room => Grammar.condition (x room)) (Grammar.condition y) :=
  .bind (.expect _) fun _ => h.bind fun _ => .bind (.expect _) fun _ => .pure _

theorem declaredType :
    Settled size bound (fun _ => Grammar.declaredType) Grammar.declaredType := by
  refine .kind fun k => ?_
  split
  · exact .bind .advance fun _ => .pure _
  · exact .pure _

theorem assignment (h : Settled size bound x y) (closed : Bool) :
    Settled size bound (fun room => Grammar.assignment (x room) closed)
      (Grammar.assignment y closed) := by
  refine .here fun l => .bind .declaredType fun declares => ?_
  refine .bind (.expect _) fun name => .bind (.expect _) fun _ => .kind fun k => ?_
  cases endsAssignment closed k with
  | true => exact .reject _
  | false =>
    refine h.bind fun value => ?_
    cases closed with
    | true => exact .bind (.expect _) fun _ => .pure _
    | false => exact .pure _

theorem branch (h : Settled size bound x y) (hb : Settled size bound b c) :
    Settled size bound (fun room => Grammar.branch (x room) (b room)) (Grammar.branch y c) := by
  refine .here fun l => .bind (.expect _) fun _ => h.condition.bind fun test => ?_
  refine hb.bind fun thenBlock => .kind fun k => ?_
  split
  · exact .bind .advance fun _ => hb.bind fun _ => .pure _
  · exact .pure _

theorem forLoop {a : Nat → Bool → Parse Node} {d : Bool → Parse Node}
    (h : Settled size bound x y)
    (ha : ∀ closed, Settled size bound (fun room => a room closed) (d closed))
    (hb : Settled size bound b c) :
    Settled size bound (fun room => Grammar.forLoop (x room) (a room) (b room))
      (Grammar.forLoop y d c) := by
  refine .here fun l => .bind (.expect _) fun _ => .bind (.expect _) fun _ => ?_
  refine (ha true).bind fun init => h.bind fun test => .bind (.expect _) fun _ => ?_
  exact (ha false).bind fun update => .bind (.expect _) fun _ => hb.bind fun _ => .pure _

theorem whileLoop (h : Settled size bound x y) (hb : Settled size bound b c) :
    Settled size bound (fun room => Grammar.whileLoop (x room) (b room))
      (Grammar.whileLoop y c) :=
  .here fun _ => .bind (.expect _) fun _ => h.condition.bind fun _ => hb.bind fun _ => .pure _

theorem returnStatement (h : Settled size bound x y) :
    Settled size bound (fun room => Grammar.returnStatement (x room))
      (Grammar.returnStatement y) := by
  refine .here fun l => .bind (.expect _) fun _ => .kind fun k => ?_
  split
  · exact .bind (.expect _) fun _ => .pure _
  · exact h.bind fun _ => .bind (.expect _) fun _ => .pure _

theorem braces {x : Nat → Parse (List Node)} {y : Parse (List Node)}
    (h : Settled size bound x y) :
    Settled size bound (fun room => Grammar.braces (x room)) (Grammar.braces y) :=
  .here fun _ => .bind (.expect _) fun _ => h.bind fun _ => .bind (.expect _) fun _ => .pure _

end Settled

theorem assignment_settled (size : Nat) (closed : Bool) :
    Settled size (8 * (size + 1) + 1) (fun room => OnStack.assignment room closed)
      (assignment expression closed) :=
  .call (.assignment (expression_settled size) closed)

/-- What the functions for statements need within a budget of `n`, on a reader of the size. -/
def statementCalls (size n : Nat) : Nat := 8 * (size + 1) + 3 + 2 * n

/-- The functions for statements settle within a budget. -/
structure SettledStatements (size n : Nat) : Prop where
  statement : Settled size (statementCalls size n) (fun room => OnStack.statementWithin n room)
    (statementWithin n)
  block : Settled size (statementCalls size n) (fun room => OnStack.blockWithin n room)
    (blockWithin n)
  statements : ∀ stop, Settled size (statementCalls size n)
    (fun room => OnStack.statementsWithin n room stop) (statementsWithin n stop)

theorem settledStatements (size n : Nat) : SettledStatements size n := by
  induction n with
  | zero =>
    refine ⟨?_, ?_, fun stop => ?_⟩
    all_goals
      simp only [OnStack.statementWithin, OnStack.blockWithin, OnStack.statementsWithin,
        statementWithin, blockWithin, statementsWithin]
      exact .reject _
  | succ n ih =>
    have hcalls : statementCalls size (n + 1) = statementCalls size n + 2 := by
      unfold statementCalls
      omega
    have hexpression : Settled size (statementCalls size n) OnStack.expression expression :=
      (expression_settled size).mono (by unfold statementCalls; omega)
    have hassignment : ∀ closed, Settled size (statementCalls size n)
        (fun room => OnStack.assignment room closed) (assignment expression closed) :=
      fun closed => (assignment_settled size closed).mono (by unfold statementCalls; omega)
    refine ⟨?_, ?_, fun stop => ?_⟩
    all_goals rw [hcalls]
    · rw [statementWithin]
      simp only [OnStack.statementWithin]
      refine .call (.kind fun k => ?_)
      cases k with
      | ifWord => exact .call (hexpression.branch ih.block)
      | forWord => exact .call (hexpression.forLoop hassignment ih.block)
      | whileWord => exact .call (hexpression.whileLoop ih.block)
      | returnWord => exact .call hexpression.returnStatement
      | leftBrace => exact ih.block.mono (Nat.le_succ _)
      | _ => exact (hassignment true).mono (Nat.le_succ _)
    · rw [blockWithin]
      simp only [OnStack.blockWithin]
      exact (Settled.call (ih.statements .rightBrace).braces).mono (Nat.le_succ _)
    · rw [statementsWithin]
      simp only [OnStack.statementsWithin]
      refine .mono (k := statementCalls size n) (.kind fun k => ?_) (by omega)
      split
      · exact .pure _
      · exact ih.statement.bind fun s => (ih.statements stop).bind fun ss => .pure _

/-- **The parser settles**, and what it needs is bounded by the number of tokens. -/
theorem program_settles (r : Reader) :
    Settles (·.cause = .tooDeep) (16 * (r.size + 1) + 3) OnStack.program program r := by
  obtain ⟨hsettles, -⟩ :=
    (settledStatements r.size (4 * (r.size + 1))).statements .endOfInput r (Nat.le_refl _)
  have hbound : statementCalls r.size (4 * (r.size + 1)) ≤ 16 * (r.size + 1) + 3 := by
    unfold statementCalls
    omega
  refine (hsettles.mono hbound).congr (fun room => ?_) ?_
  · rw [OnStack.program]
  · rw [program]

end ThreeAddress.Grammar
