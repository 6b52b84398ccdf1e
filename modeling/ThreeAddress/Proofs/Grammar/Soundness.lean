import ThreeAddress.Proofs.Grammar.Derivation
import ThreeAddress.Proofs.Grammar.Reading
import ThreeAddress.Proofs.Literal.Digits

/-!
# Parsing is sound

What is read is what the grammar derives from the tokens that were taken for it, and whatever else
is rejected for a reason of the grammar, never for lack of budget.

Every call that passes the budget on has taken a token or comes earlier in the order of the
functions, so the budget that a call needs is a multiple of the number of tokens ahead, plus the
rank of the function. `SoundWithin` collects what holds for the functions that call each other,
and holds for all budgets by induction.
-/

namespace ThreeAddress.Grammar

open Parse Derives

/-! ## Factors -/

theorem intLiteral_takes {r : Reader} (hk : r.current.kind = .intLiteral) :
    Takes (intLiteral r.current) r fun ts e _ => Expression .factor ts e := by
  refine .of_lexical fun hr => ?_
  have hend : r.current.kind ≠ .endOfInput := hk ▸ nofun
  obtain ⟨hne, hdigits⟩ := (hk ▸ (hr.current hend).spelling (.inl hk)).digits
  obtain ⟨ds, hds, hlength⟩ := Literal.mapM_digitValue? hdigits
  have hds_ne : ds ≠ [] := by
    rw [← List.length_pos_iff, hlength]
    exact List.length_pos_iff.2 hne
  unfold intLiteral
  rw [Literal.readInt?_eq hds hne]
  by_cases hlimit : ds.length ≤ Literal.digitLimit
  · rw [if_pos hlimit]
    refine .advance_bind hend ?_
    intro r' _
    exact .pure (.int hk hds hds_ne hlimit)
  · rw [if_neg hlimit]
    exact .reject .unreadableInteger

/-- The text of a float literal can be read. -/
theorem readFloat?_of_lexical {t : Token} (h : t.Lexical) (hk : t.kind = .floatLiteral) :
    ∃ x, Literal.readFloat? t.text.toList = some x := by
  obtain ⟨whole, fraction, htext, hne, hwhole, hfraction⟩ := (hk ▸ h.spelling (.inr hk)).point
  obtain ⟨ds, hds, -⟩ := Literal.mapM_digitValue? hwhole
  obtain ⟨es, hes, -⟩ := Literal.mapM_digitValue? hfraction
  rw [htext]
  exact ⟨_, Literal.readFloat?_eq hds hes hne⟩

theorem floatLiteral_takes {r : Reader} (hk : r.current.kind = .floatLiteral) :
    Takes (floatLiteral r.current) r fun ts e _ => Expression .factor ts e := by
  refine .of_lexical fun hr => ?_
  have hend : r.current.kind ≠ .endOfInput := hk ▸ nofun
  obtain ⟨x, hvalue⟩ := readFloat?_of_lexical (hr.current hend) hk
  unfold floatLiteral
  refine .advance_bind hend ?_
  intro r' _
  rw [hvalue]
  exact .pure (.float hk hvalue)

/-- A factor, if what stands in parentheses behind its first token is an expression. -/
theorem factor_takes {expression : Parse Node} {r : Reader}
    (h : ∀ r' : Reader, r'.ahead.length < r.ahead.length →
      Takes expression r' fun ts e _ => Expression .expression ts e) :
    Takes (factor expression) r fun ts e _ => Expression .factor ts e := by
  unfold factor
  refine .look rfl ?_
  dsimp only
  split
  · next hk => exact intLiteral_takes hk
  · next hk => exact floatLiteral_takes hk
  · next hk =>
    refine .advance_bind (hk ▸ nofun) ?_
    intro r' _
    exact .pure (.string hk)
  · next hk =>
    refine .advance_bind (hk ▸ nofun) ?_
    intro r' _
    exact .pure (.var hk)
  · next hk =>
    refine .advance_bind (hk ▸ nofun) ?_
    intro r₁ hlength
    refine (h r₁ (by omega)).bind ?_
    intro ts e r₂ _ he
    refine .expect_bind nofun ?_
    intro r₃ hclosing _
    exact .pure (.parens hk he hclosing)
  · exact .reject .unexpectedToken

/-! ## Tiers -/

/-- What the functions for expressions read within a budget. -/
structure SoundWithin (n : Nat) : Prop where
  expression : ∀ r : Reader, 2 * r.ahead.length + 2 ≤ n →
    Takes (expressionWithin n) r fun ts e _ => Expression .expression ts e
  moreTerms : ∀ (r : Reader) {ts : List Token} {left : Node}, Expression .expression ts left →
    2 * r.ahead.length + 1 ≤ n →
    Takes (moreTermsWithin n left) r fun us e _ => Expression .expression (ts ++ us) e
  term : ∀ r : Reader, 2 * r.ahead.length + 1 ≤ n →
    Takes (termWithin n) r fun ts e _ => Expression .term ts e
  moreFactors : ∀ (r : Reader) {ts : List Token} {left : Node}, Expression .term ts left →
    2 * r.ahead.length + 1 ≤ n →
    Takes (moreFactorsWithin n left) r fun us e _ => Expression .term (ts ++ us) e

theorem Derives.Expression.length_pos {tier : Tier} {ts : List Token} {e : Node}
    (h : Expression tier ts e) : 0 < ts.length := by
  obtain ⟨t, us, rfl, -⟩ := h.first
  exact Nat.succ_pos _

/-- An operator is a token. -/
theorem ne_endOfInput_of_low {k : Kind} (h : isLowOperator k = true) : k ≠ .endOfInput := by
  intro heq
  subst heq
  cases h

theorem ne_endOfInput_of_high {k : Kind} (h : isHighOperator k = true) : k ≠ .endOfInput := by
  intro heq
  subst heq
  cases h

theorem soundWithin (n : Nat) : SoundWithin n := by
  induction n with
  | zero => exact ⟨fun _ h => by omega, fun _ _ _ _ h => by omega, fun _ h => by omega,
      fun _ _ _ _ h => by omega⟩
  | succ n ih =>
    refine ⟨fun r hn => ?_, fun r ts left hleft hn => ?_, fun r hn => ?_,
      fun r ts left hleft hn => ?_⟩
    · rw [expressionWithin]
      refine (ih.term r (by omega)).bind ?_
      intro ts left r₁ hm hleft
      have hlength := hm.length
      exact ih.moreTerms r₁ (.ofTerm hleft) (by omega)
    · rw [moreTermsWithin]
      refine .look rfl ?_
      by_cases hop : isLowOperator r.current.kind = true
      · rw [if_pos hop]
        refine .advance_bind (ne_endOfInput_of_low hop) ?_
        intro r₁ hlength₁
        refine (ih.term r₁ (by omega)).bind ?_
        intro us right r₂ hm₂ hright
        have hlength₂ := hm₂.length
        refine (ih.moreTerms r₂ (.low hleft hop hright) (by omega)).mono ?_
        intro vs e r₃ _ he
        simpa using he
      · rw [if_neg hop]
        exact .pure (by rwa [List.append_nil])
    · rw [termWithin]
      refine (factor_takes fun r' hr' => ih.expression r' (by omega)).bind ?_
      intro ts left r₁ hm hleft
      have hlength := hm.length
      have hpos := hleft.length_pos
      exact ih.moreFactors r₁ (.ofFactor hleft) (by omega)
    · rw [moreFactorsWithin]
      refine .look rfl ?_
      by_cases hop : isHighOperator r.current.kind = true
      · rw [if_pos hop]
        refine .advance_bind (ne_endOfInput_of_high hop) ?_
        intro r₁ hlength₁
        refine (factor_takes fun r' hr' => ih.expression r' (by omega)).bind ?_
        intro us right r₂ hm₂ hright
        have hlength₂ := hm₂.length
        refine (ih.moreFactors r₂ (.high hleft hop hright) (by omega)).mono ?_
        intro vs e r₃ _ he
        simpa using he
      · rw [if_neg hop]
        exact .pure (by rwa [List.append_nil])

/-- **Expressions are read soundly.** -/
theorem expression_takes (r : Reader) :
    Takes expression r fun ts e _ => Expression .expression ts e := by
  have hsize := r.ahead_length_le
  refine .congr (y := expressionWithin (4 * (r.size + 1))) (by rw [expression]) ?_
  exact (soundWithin _).expression r (by omega)

/-! ## Statements -/

theorem condition_takes (r : Reader) :
    Takes (condition expression) r fun ts e _ => Condition ts e := by
  unfold condition
  refine .expect_bind nofun ?_
  intro r₁ hopening _
  refine (expression_takes r₁).bind ?_
  intro ts e r₂ _ he
  refine .expect_bind nofun ?_
  intro r₃ hclosing _
  exact .pure (.parens hopening he hclosing)

/-- What ends an assignment: a semicolon if it is closed, and else nothing. -/
def Closing : Bool → List Token → Prop
  | true, ts => ∃ semicolon : Token, ts = [semicolon] ∧ semicolon.kind = .semicolon
  | false, ts => ts = []

/-- A type in front, if there is one. -/
theorem declaredType_takes (r : Reader) :
    Takes declaredType r fun ts declares r' =>
      (ts = [] ∧ declares = none ∧ r' = r) ∨
        (ts = [r.current] ∧ r.current.kind.isType = true ∧
          declares = some (.ofName r.current.text)) := by
  unfold declaredType
  refine .look rfl ?_
  by_cases htype : r.current.kind.isType = true
  · rw [if_pos htype]
    have hend : r.current.kind ≠ .endOfInput := by
      intro hend
      rw [hend] at htype
      cases htype
    refine .advance_bind hend ?_
    intro r₁ _
    exact .pure (.inr ⟨rfl, htype, rfl⟩)
  · rw [if_neg htype]
    exact .pure (.inl ⟨rfl, rfl, rfl⟩)

theorem assignment_takes (closed : Bool) (r : Reader) :
    Takes (assignment expression closed) r fun ts s _ =>
      ∃ us end', ts = us ++ end' ∧ Update us s ∧ Closing closed end' := by
  unfold assignment
  refine .look rfl ?_
  refine (declaredType_takes r).bind ?_
  intro type declares r₁ _ hdeclares
  refine .expect_bind nofun ?_
  intro r₂ hname _
  refine .expect_bind nofun ?_
  intro r₃ hsign _
  refine .look rfl ?_
  split
  · exact .reject .missingExpression
  · refine (expression_takes r₃).bind ?_
    intro ts value r₄ _ hvalue
    have hupdate : Update (type ++ r₁.current :: r₂.current :: ts)
        (.assign r₁.current.text value declares r.current.location) := by
      rcases hdeclares with ⟨rfl, rfl, rfl⟩ | ⟨rfl, htype, rfl⟩
      · exact .plain hname hsign hvalue
      · exact .typed htype hname hsign hvalue
    cases closed with
    | false =>
      refine .pure ⟨_, [], ?_, hupdate, rfl⟩
      simp
    | true =>
      refine .expect_bind nofun ?_
      intro r₅ hsemicolon _
      refine .pure ⟨_, [r₄.current], ?_, hupdate, r₄.current, rfl, hsemicolon⟩
      simp

theorem returnStatement_takes (r : Reader) :
    Takes (returnStatement expression) r fun ts s _ => Statement ts s := by
  unfold returnStatement
  refine .look rfl ?_
  refine .expect_bind nofun ?_
  intro r₁ hword _
  refine .look rfl ?_
  split
  · refine .expect_bind nofun ?_
    intro r₂ hsemicolon _
    exact .pure (.ret hword hsemicolon)
  · refine (expression_takes r₁).bind ?_
    intro ts e r₂ _ he
    refine .expect_bind nofun ?_
    intro r₃ hsemicolon _
    exact .pure (.retValue hword he hsemicolon)

section Blocks

/-! The statements that have blocks, if what is read as a block is one. -/

variable {block : Parse Node} {r : Reader}
  (h : ∀ r' : Reader, r'.ahead.length < r.ahead.length →
    Takes block r' fun ts b _ => Block ts b)

include h

theorem branch_takes : Takes (branch expression block) r fun ts s _ => Statement ts s := by
  unfold branch
  refine .look rfl ?_
  refine .expect_bind nofun ?_
  intro r₁ hword hlength₁
  refine (condition_takes r₁).bind ?_
  intro cs c r₂ hm₂ hc
  have hlength₂ := hm₂.length
  refine (h r₂ (by omega)).bind ?_
  intro ts b r₃ hm₃ hb
  have hlength₃ := hm₃.length
  refine .look rfl ?_
  split
  · next hother =>
    refine .advance_bind (hother ▸ nofun) ?_
    intro r₄ hlength₄
    refine (h r₄ (by omega)).bind ?_
    intro us b' r₅ _ hb'
    refine .pure ?_
    rw [List.append_nil]
    exact .ifElse hword hc hb hother hb'
  · refine .pure ?_
    simpa using Derives.Statement.ifThen hword hc hb

theorem whileLoop_takes : Takes (whileLoop expression block) r fun ts s _ => Statement ts s := by
  unfold whileLoop
  refine .look rfl ?_
  refine .expect_bind nofun ?_
  intro r₁ hword hlength₁
  refine (condition_takes r₁).bind ?_
  intro cs c r₂ hm₂ hc
  have hlength₂ := hm₂.length
  refine (h r₂ (by omega)).bind ?_
  intro ts b r₃ _ hb
  refine .pure ?_
  simpa using Derives.Statement.whileLoop hword hc hb

theorem forLoop_takes :
    Takes (forLoop expression (assignment expression) block) r fun ts s _ => Statement ts s := by
  unfold forLoop
  refine .look rfl ?_
  refine .expect_bind nofun ?_
  intro r₁ hword hlength₁
  refine .expect_bind nofun ?_
  intro r₂ hopening hlength₂
  refine (assignment_takes true r₂).bind ?_
  intro _ i r₃ hm₃ hread
  obtain ⟨is, _, rfl, hi, first, rfl, hfirst⟩ := hread
  have hlength₃ := hm₃.length
  refine (expression_takes r₃).bind ?_
  intro cs c r₄ hm₄ hc
  have hlength₄ := hm₄.length
  refine .expect_bind nofun ?_
  intro r₅ hsecond hlength₅
  refine (assignment_takes false r₅).bind ?_
  intro _ u r₆ hm₆ hread
  obtain ⟨us, _, rfl, hu, rfl⟩ := hread
  have hlength₆ := hm₆.length
  refine .expect_bind nofun ?_
  intro r₇ hclosing hlength₇
  refine (h r₇ (by omega)).bind ?_
  intro ts b r₈ _ hb
  refine .pure ?_
  simpa using Derives.Statement.forLoop hword hopening hi hfirst hc hsecond hu hclosing hb

end Blocks

/-- What the functions for statements read within a budget. -/
structure SoundStatements (n : Nat) : Prop where
  statement : ∀ r : Reader, 3 * r.ahead.length + 2 ≤ n →
    Takes (statementWithin n) r fun ts s _ => Statement ts s
  block : ∀ r : Reader, 3 * r.ahead.length + 1 ≤ n →
    Takes (blockWithin n) r fun ts s _ => Block ts s
  statements : ∀ (r : Reader) (stop : Kind), 3 * r.ahead.length + 3 ≤ n →
    Takes (statementsWithin n stop) r fun ts ss r' => Program ts ss ∧ r'.current.kind = stop

theorem soundStatements (n : Nat) : SoundStatements n := by
  induction n with
  | zero => exact ⟨fun _ h => by omega, fun _ h => by omega, fun _ _ h => by omega⟩
  | succ n ih =>
    refine ⟨fun r hn => ?_, fun r hn => ?_, fun r stop hn => ?_⟩
    · rw [statementWithin]
      have hblock : ∀ r' : Reader, r'.ahead.length < r.ahead.length →
          Takes (blockWithin n) r' fun ts b _ => Block ts b :=
        fun r' hr' => ih.block r' (by omega)
      refine .look rfl ?_
      split
      · exact branch_takes hblock
      · exact forLoop_takes hblock
      · exact whileLoop_takes hblock
      · exact returnStatement_takes r
      · exact (ih.block r (by omega)).mono fun _ _ _ _ hb => .block hb
      · refine (assignment_takes true r).mono ?_
        intro _ s r' _ hread
        obtain ⟨us, _, rfl, hs, semicolon, rfl, hsemicolon⟩ := hread
        exact .assignment hs hsemicolon
    · rw [blockWithin, braces]
      refine .look rfl ?_
      refine .expect_bind nofun ?_
      intro r₁ hopening hlength₁
      refine (ih.statements r₁ .rightBrace (by omega)).bind ?_
      intro ts ss r₂ _ hread
      obtain ⟨hss, -⟩ := hread
      refine .expect_bind nofun ?_
      intro r₃ hclosing _
      exact .pure (.braces hopening hss hclosing)
    · rw [statementsWithin]
      refine .look rfl ?_
      by_cases hstop : r.current.kind = stop
      · rw [if_pos hstop]
        exact .pure ⟨.nil, hstop⟩
      · rw [if_neg hstop]
        refine (ih.statement r (by omega)).bind ?_
        intro ts s r₁ hm₁ hs
        have hlength₁ := hm₁.length
        obtain ⟨t, rest, rfl, -⟩ := hs.first
        rw [List.length_cons] at hlength₁
        refine (ih.statements r₁ stop (by omega)).bind ?_
        intro us ss r₂ _ hread
        obtain ⟨hss, hkind⟩ := hread
        refine .pure ⟨?_, hkind⟩
        rw [List.append_nil]
        exact .cons hs hss

/-- **Programs are read soundly**, up to the end of input. -/
theorem program_takes (r : Reader) :
    Takes program r fun ts ss r' => Program ts ss ∧ r'.current.kind = .endOfInput := by
  have hsize := r.ahead_length_le
  refine .congr (y := statementsWithin (4 * (r.size + 1)) .endOfInput) (by rw [program]) ?_
  exact (soundStatements _).statements r .endOfInput (by omega)

end ThreeAddress.Grammar
