import ThreeAddress.Proofs.Grammar.Soundness

/-!
# Parsing is complete

What the grammar derives is read, wherever it stands: behind an expression there must be no
operator, and behind a branch no `else`.

The proofs are inductions on derivations. The two tiers group from the left while a reader goes on
from left to right, so for them the induction says that a reader of the tokens comes to the middle
of its loop, with the tree as its left operand (`ReadWithin`).
-/

namespace ThreeAddress.Grammar

open Parse Derives

/-! ## Expressions -/

/-- No operator. -/
def EndsExpression (k : Kind) : Prop := isHighOperator k = false ∧ isLowOperator k = false

theorem EndsExpression.of_eq {k k' : Kind} (h : k = k') (hk' : EndsExpression k') :
    EndsExpression k := h ▸ hk'

theorem isHighOperator_of_low {k : Kind} (h : isLowOperator k = true) :
    isHighOperator k = false := by
  cases k <;> first | rfl | cases h

theorem moreFactors_end {n : Nat} {e : Node} {rest : List Token} (hn : 0 < n)
    (hrest : isHighOperator (kindOf rest) = false) :
    Becomes (moreFactorsWithin n e) [] rest (pure e) := by
  obtain ⟨n, rfl⟩ := Nat.exists_eq_succ_of_ne_zero (Nat.pos_iff_ne_zero.1 hn)
  rw [moreFactorsWithin]
  refine .kind ?_
  rw [List.nil_append, hrest, if_neg Bool.false_ne_true]
  exact .refl _ _

theorem moreTerms_end {n : Nat} {e : Node} {rest : List Token} (hn : 0 < n)
    (hrest : isLowOperator (kindOf rest) = false) :
    Becomes (moreTermsWithin n e) [] rest (pure e) := by
  obtain ⟨n, rfl⟩ := Nat.exists_eq_succ_of_ne_zero (Nat.pos_iff_ne_zero.1 hn)
  rw [moreTermsWithin]
  refine .kind ?_
  rw [List.nil_append, hrest, if_neg Bool.false_ne_true]
  exact .refl _ _

/-! ### Literals -/

theorem factor_int {x : Parse Node} {t : Token} {ds : List Nat} {rest : List Token}
    (hk : t.kind = .intLiteral) (hds : t.text.toList.mapM Text.digitValue? = some ds)
    (hne : ds ≠ []) (hlimit : ds.length ≤ Literal.digitLimit) :
    Becomes (factor x) [t] rest (pure (.int (Literal.value ds : Int) t.location)) := by
  have htext : t.text.toList ≠ [] := by
    intro htext
    rw [htext] at hds
    cases hds
    exact hne rfl
  have hread : Literal.readInt? t.text.toList = some (Literal.value ds : Int) := by
    rw [Literal.readInt?_eq hds htext]
    exact if_pos hlimit
  refine .look fun r hr => ?_
  dsimp only
  rw [hr, hk]
  dsimp only
  rw [intLiteral, hread]
  exact .cons_bind .advance (.refl _ _)

theorem factor_float {x : Parse Node} {t : Token} {value : Float} {rest : List Token}
    (hk : t.kind = .floatLiteral) (hvalue : Literal.readFloat? t.text.toList = some value) :
    Becomes (factor x) [t] rest (pure (.float value t.location)) := by
  refine .look fun r hr => ?_
  dsimp only
  rw [hr, hk]
  dsimp only
  rw [floatLiteral, hvalue]
  exact .cons_bind .advance (.refl _ _)

/-! ### Tiers -/

/-- What a reader of the tokens of a tier comes to within a budget: the tree, or the loop for the
operators of the tier with the tree as the left operand. -/
def ReadWithin : Tier → List Token → Node → Prop
  | .factor, ts, e => ∀ {rest n}, 2 * (ts.length + rest.length) ≤ n →
      Becomes (factor (expressionWithin n)) ts rest (pure e)
  | .term, ts, e => ∀ {rest n}, 2 * (ts.length + rest.length) + 1 ≤ n →
      ∃ m, 2 * rest.length + 1 ≤ m ∧ Becomes (termWithin n) ts rest (moreFactorsWithin m e)
  | .expression, ts, e => ∀ {rest n}, isHighOperator (kindOf rest) = false →
      2 * (ts.length + rest.length) + 2 ≤ n →
      ∃ m, 2 * rest.length + 1 ≤ m ∧ Becomes (expressionWithin n) ts rest (moreTermsWithin m e)

theorem Derives.Expression.readWithin {tier : Tier} {ts : List Token} {e : Node}
    (h : Expression tier ts e) : ReadWithin tier ts e := by
  induction h with
  | int hk hds hne hlimit => exact fun _ => factor_int hk hds hne hlimit
  | float hk hx => exact fun _ => factor_float hk hx
  | string hk | var hk =>
    intro rest n hn
    refine .look fun r hr => ?_
    dsimp only
    rw [hr, hk]
    exact .cons_bind .advance (.refl _ _)
  | @parens opening closing ts e hopening he hclosing ih =>
    intro rest n hn
    simp only [List.length_cons, List.length_append, List.length_nil] at hn
    refine .look fun r hr => ?_
    dsimp only
    rw [hr, hopening]
    refine .cons_bind .advance ?_
    have hends : EndsExpression (kindOf ([closing] ++ rest)) := .of_eq hclosing ⟨rfl, rfl⟩
    obtain ⟨m, hm, hread⟩ := @ih ([closing] ++ rest) n hends.1 (by
      simp only [List.length_append, List.length_cons, List.length_nil]
      omega)
    have hinner := hread.settle (moreTerms_end (by omega) hends.2)
    exact hinner.bind (.last (.expect hclosing) (.refl _ _))
  | @ofFactor ts e he ih =>
    intro rest n hn
    have hpos := he.length_pos
    obtain ⟨n, rfl⟩ := Nat.exists_eq_succ_of_ne_zero (show n ≠ 0 by omega)
    refine ⟨n, by omega, ?_⟩
    rw [termWithin]
    exact .last (ih (by omega)) (.refl _ _)
  | @high ts us op left right hleft hop hright ihl ihr =>
    intro rest n hn
    simp only [List.length_cons, List.length_append] at hn
    obtain ⟨m, hm, hread⟩ := @ihl (op :: us ++ rest) n (by
      simp only [List.length_cons, List.length_append]
      omega)
    simp only [List.length_cons, List.length_append] at hm
    obtain ⟨m, rfl⟩ := Nat.exists_eq_succ_of_ne_zero (show m ≠ 0 by omega)
    refine ⟨m, by omega, hread.trans ?_⟩
    rw [moreFactorsWithin]
    refine .kind ?_
    rw [List.cons_append, kindOf, if_pos hop]
    exact .cons_bind .advance (.last (ihr (by omega)) (.refl _ _))
  | @ofTerm ts e he ih =>
    intro rest n hrest hn
    obtain ⟨n, rfl⟩ := Nat.exists_eq_succ_of_ne_zero (show n ≠ 0 by omega)
    have hpos := he.length_pos
    obtain ⟨m, hm, hread⟩ := @ih rest n (by omega)
    refine ⟨n, by omega, ?_⟩
    rw [expressionWithin]
    have hterm := hread.settle (moreFactors_end (by omega) hrest)
    exact hterm.last (.refl _ _)
  | @low ts us op left right hleft hop hright ihl ihr =>
    intro rest n hrest hn
    simp only [List.length_cons, List.length_append] at hn
    obtain ⟨m, hm, hread⟩ := @ihl (op :: us ++ rest) n (isHighOperator_of_low hop) (by
      simp only [List.length_cons, List.length_append]
      omega)
    simp only [List.length_cons, List.length_append] at hm
    obtain ⟨m, rfl⟩ := Nat.exists_eq_succ_of_ne_zero (show m ≠ 0 by omega)
    refine ⟨m, by omega, hread.trans ?_⟩
    rw [moreTermsWithin]
    refine .kind ?_
    rw [List.cons_append, kindOf, if_pos hop]
    obtain ⟨k, hk, hright⟩ := @ihr rest m (by omega)
    have hterm := hright.settle (moreFactors_end (by omega) hrest)
    exact .cons_bind .advance (hterm.last (.refl _ _))

/-- A step whose budget depends on the reader. -/
theorem Becomes.of_budget {α : Type} {x : Parse α} (within : Nat → Parse α) {ts rest : List Token}
    {y : Parse α} (bound : Nat) (hx : ∀ r, x r = within (4 * (r.size + 1)) r)
    (hbound : bound ≤ 4 * ((ts ++ rest).length + 1))
    (h : ∀ n, bound ≤ n → Becomes (within n) ts rest y) : Becomes x ts rest y := by
  intro r hr
  have hsize := r.ahead_length_le
  rw [hr.ahead] at hsize
  rw [hx r]
  exact h _ (by omega) r hr

/-- **Expressions are read completely.** -/
theorem Derives.Expression.becomes {ts rest : List Token} {e : Node}
    (h : Expression .expression ts e) (hrest : EndsExpression (kindOf rest)) :
    Becomes expression ts rest (pure e) := by
  refine .of_budget expressionWithin (2 * (ts.length + rest.length) + 2)
    (fun r => by rw [expression]) (by rw [List.length_append]; omega) fun n hn => ?_
  obtain ⟨m, hm, hread⟩ := h.readWithin hrest.1 hn
  exact hread.settle (moreTerms_end (by omega) hrest.2)

/-! ## Assignments and conditions -/

theorem Derives.Condition.becomes {ts rest : List Token} {e : Node} (h : Condition ts e) :
    Becomes (condition expression) ts rest (pure e) := by
  cases h with
  | @parens opening closing ts e hopening he hclosing =>
    unfold condition
    refine .cons_bind (.expect hopening) ?_
    refine (he.becomes ?_).bind (.last (.expect hclosing) (.refl _ _))
    exact .of_eq hclosing ⟨rfl, rfl⟩

theorem endsAssignment_of_starts {closed : Bool} {k : Kind} (h : startsExpression k = true) :
    endsAssignment closed k = false := by
  cases k <;> first | rfl | cases h

/-- An expression starts as one, whatever stands behind it. -/
theorem Derives.Expression.starts {tier : Tier} {ts : List Token} {e : Node}
    (h : Expression tier ts e) (us : List Token) :
    startsExpression (kindOf (ts ++ us)) = true := by
  obtain ⟨t, ts, rfl, ht⟩ := h.first
  exact ht

theorem declaredType_none {name : Token} {rest : List Token} (hname : name.kind = .identifier) :
    Becomes declaredType [] (name :: rest) (pure none) := by
  refine .kind ?_
  rw [List.nil_append, kindOf, hname]
  exact .refl _ _

theorem declaredType_some {type : Token} {rest : List Token} (htype : type.kind.isType = true) :
    Becomes declaredType [type] rest (pure (some (.ofName type.text))) := by
  refine .kind ?_
  rw [List.singleton_append, kindOf, if_pos htype]
  exact .cons_bind .advance (.refl _ _)

/-- The parts of an assignment, of which the first may be empty. -/
theorem Derives.Update.parts {ts : List Token} {s : Node} (h : Update ts s) :
    ∃ first tail type name sign vs value declares, ts = first :: tail ∧
      ts = type ++ name :: sign :: vs ∧ name.kind = .identifier ∧ sign.kind = .assign ∧
      Expression .expression vs value ∧ s = .assign name.text value declares first.location ∧
      ∀ rest, Becomes declaredType type (name :: rest) (pure declares) := by
  cases h with
  | plain hname hsign hvalue =>
    exact ⟨_, _, [], _, _, _, _, _, rfl, rfl, hname, hsign, hvalue, rfl,
      fun _ => declaredType_none hname⟩
  | typed htype hname hsign hvalue =>
    exact ⟨_, _, [_], _, _, _, _, _, rfl, rfl, hname, hsign, hvalue, rfl,
      fun _ => declaredType_some htype⟩

theorem Derives.Update.becomes {closed : Bool} {ts end' rest : List Token} {s : Node}
    (h : Update ts s) (hclosing : Closing closed end')
    (hrest : EndsExpression (kindOf (end' ++ rest))) :
    Becomes (assignment expression closed) (ts ++ end') rest (pure s) := by
  obtain ⟨first, tail, type, name, sign, vs, value, declares, hts, hparts, hname, hsign, hvalue,
    rfl, hdeclares⟩ := h.parts
  unfold assignment
  rw [hts, List.cons_append]
  refine .here ?_
  rw [← List.cons_append, ← hts, hparts, List.append_assoc, List.cons_append, List.cons_append]
  refine (hdeclares _).bind ?_
  refine .cons_bind (.expect hname) (.cons_bind (.expect hsign) (.kind ?_))
  have hstarts := hvalue.starts (end' ++ rest)
  rw [List.append_assoc, endsAssignment_of_starts hstarts, if_neg Bool.false_ne_true]
  refine (hvalue.becomes hrest).bind ?_
  cases closed with
  | false =>
    cases hclosing
    exact .refl _ _
  | true =>
    obtain ⟨semicolon, rfl, hsemicolon⟩ := hclosing
    exact .cons_bind (.expect hsemicolon) (.refl _ _)

theorem Derives.Update.becomes_closed {ts rest : List Token} {semicolon : Token} {s : Node}
    (h : Update ts s) (hsemicolon : semicolon.kind = .semicolon) :
    Becomes (assignment expression true) (ts ++ [semicolon]) rest (pure s) :=
  h.becomes ⟨semicolon, rfl, hsemicolon⟩ (.of_eq hsemicolon ⟨rfl, rfl⟩)

theorem Derives.Update.becomes_open {ts rest : List Token} {s : Node} (h : Update ts s)
    (hrest : EndsExpression (kindOf rest)) :
    Becomes (assignment expression false) ts rest (pure s) := by
  rw [← List.append_nil ts]
  exact h.becomes rfl hrest

/-! ## Statements -/

section Blocks

/-! The statements that have blocks, if their blocks are read. -/

variable {block : Parse Node} {word : Token} {cs ts rest : List Token} {c b : Node}

theorem branch_ifThen (hword : word.kind = .ifWord) (hc : Condition cs c)
    (hb : Becomes block ts rest (pure b)) (hrest : kindOf rest ≠ .elseWord) :
    Becomes (branch expression block) (word :: (cs ++ ts)) rest
      (pure (.ifThen c b word.location)) := by
  unfold branch
  refine .here (.cons_bind (.expect hword) (hc.becomes.bind (hb.last (.kind ?_))))
  rw [List.nil_append, if_neg hrest]
  exact .refl _ _

theorem branch_ifElse {other : Token} {us : List Token} {b' : Node} (hword : word.kind = .ifWord)
    (hc : Condition cs c) (hother : other.kind = .elseWord)
    (hb : Becomes block ts (other :: us ++ rest) (pure b)) (hb' : Becomes block us rest (pure b')) :
    Becomes (branch expression block) (word :: (cs ++ (ts ++ other :: us))) rest
      (pure (.ifElse c b b' word.location)) := by
  unfold branch
  refine .here (.cons_bind (.expect hword) (hc.becomes.bind (hb.bind (.kind ?_))))
  rw [List.cons_append, kindOf, if_pos hother]
  exact .cons_bind .advance (hb'.last (.refl _ _))

theorem whileLoop_becomes (hword : word.kind = .whileWord) (hc : Condition cs c)
    (hb : Becomes block ts rest (pure b)) :
    Becomes (whileLoop expression block) (word :: (cs ++ ts)) rest
      (pure (.whileLoop c b word.location)) := by
  unfold whileLoop
  exact .here (.cons_bind (.expect hword) (hc.becomes.bind (hb.last (.refl _ _))))

theorem forLoop_becomes {opening first second closing : Token} {is us : List Token} {i u : Node}
    (hword : word.kind = .forWord) (hopening : opening.kind = .leftParen) (hi : Update is i)
    (hfirst : first.kind = .semicolon) (hc : Expression .expression cs c)
    (hsecond : second.kind = .semicolon) (hu : Update us u) (hclosing : closing.kind = .rightParen)
    (hb : Becomes block ts rest (pure b)) :
    Becomes (forLoop expression (assignment expression) block)
      (word :: opening :: (is ++ first :: (cs ++ second :: (us ++ closing :: ts)))) rest
      (pure (.forLoop i c u b word.location)) := by
  unfold forLoop
  refine .here (.cons_bind (.expect hword) (.cons_bind (.expect hopening) ?_))
  rw [List.append_cons]
  refine (hi.becomes_closed hfirst).bind ?_
  refine .bind (hc.becomes (.of_eq hsecond ⟨rfl, rfl⟩)) (.cons_bind (.expect hsecond) ?_)
  refine .bind (hu.becomes_open (.of_eq hclosing ⟨rfl, rfl⟩)) (.cons_bind (.expect hclosing) ?_)
  exact hb.last (.refl _ _)

end Blocks

theorem returnStatement_ret {word semicolon : Token} {rest : List Token}
    (hword : word.kind = .returnWord) (hsemicolon : semicolon.kind = .semicolon) :
    Becomes (returnStatement expression) [word, semicolon] rest (pure (.ret word.location)) := by
  unfold returnStatement
  refine .here (.cons_bind (.expect hword) (.kind ?_))
  rw [List.singleton_append, kindOf, if_pos hsemicolon]
  exact .cons_bind (.expect hsemicolon) (.refl _ _)

theorem returnStatement_retValue {word semicolon : Token} {ts rest : List Token} {e : Node}
    (hword : word.kind = .returnWord) (he : Expression .expression ts e)
    (hsemicolon : semicolon.kind = .semicolon) :
    Becomes (returnStatement expression) (word :: (ts ++ [semicolon])) rest
      (pure (.retValue e word.location)) := by
  unfold returnStatement
  refine .here (.cons_bind (.expect hword) (.kind ?_))
  have hstarts := he.starts ([semicolon] ++ rest)
  have hne : kindOf (ts ++ [semicolon] ++ rest) ≠ .semicolon := by
    intro heq
    rw [← List.append_assoc, heq] at hstarts
    cases hstarts
  rw [if_neg hne]
  refine .bind (he.becomes (.of_eq hsemicolon ⟨rfl, rfl⟩)) ?_
  exact .cons_bind (.expect hsemicolon) (.refl _ _)

/-! ### All statements -/

/-- Where a list of statements may end. -/
def EndsStatements (k : Kind) : Prop := k = .rightBrace ∨ k = .endOfInput

theorem EndsStatements.ne_of_starts {k k' : Kind} (h : EndsStatements k)
    (hk' : startsStatement k' = true) : k' ≠ k := by
  intro heq
  subst heq
  rcases h with rfl | rfl <;> cases hk'

theorem Derives.Statement.starts {ts : List Token} {s : Node} (h : Statement ts s)
    (us : List Token) : startsStatement (kindOf (ts ++ us)) = true := by
  obtain ⟨t, ts, rfl, ht⟩ := h.first
  exact ht

theorem Derives.Statement.length_pos {ts : List Token} {s : Node} (h : Statement ts s) :
    0 < ts.length := by
  obtain ⟨t, ts, rfl, -⟩ := h.first
  exact Nat.succ_pos _

/-- Behind a statement there is another one or the end of the list, so there is no `else`. -/
theorem Derives.Program.kindOf_ne_else {ts rest : List Token} {ss : List Node}
    (h : Program ts ss) (hrest : EndsStatements (kindOf rest)) :
    kindOf (ts ++ rest) ≠ .elseWord := by
  cases h with
  | nil =>
    intro helse
    rw [List.nil_append] at helse
    rcases hrest with hrest | hrest <;> cases hrest.symm.trans helse
  | @cons ts us _ _ h h' =>
    have hstarts := h.starts (us ++ rest)
    intro helse
    rw [← List.append_assoc, helse] at hstarts
    cases hstarts

/-- How a statement is read that starts with a token of the given kind. -/
def statementOf (n : Nat) : Kind → Parse Node
  | .ifWord => branch expression (blockWithin n)
  | .forWord => forLoop expression (assignment expression) (blockWithin n)
  | .whileWord => whileLoop expression (blockWithin n)
  | .returnWord => returnStatement expression
  | .leftBrace => blockWithin n
  | _ => assignment expression true

theorem statement_of_kind {n : Nat} {k : Kind} {t : Token} {ts rest : List Token} {y : Parse Node}
    (ht : t.kind = k) (h : Becomes (statementOf n k) (t :: ts) rest y) :
    Becomes (statementWithin (n + 1)) (t :: ts) rest y := by
  rw [statementWithin]
  refine .kind ?_
  rw [List.cons_append, kindOf, ht]
  exact h

/-- What starts with a name or a type is read as an assignment. -/
theorem statementOf_assignment {n : Nat} {k : Kind} (hk : k = .identifier ∨ k.isType = true) :
    statementOf n k = assignment expression true := by
  rcases hk with rfl | hk
  · rfl
  · cases k <;> first | rfl | cases hk

mutual

theorem Derives.Statement.becomes {ts : List Token} {s : Node} : Statement ts s →
    ∀ {rest : List Token} {n : Nat}, kindOf rest ≠ .elseWord →
      3 * (ts.length + rest.length) + 1 ≤ n →
      Becomes (statementWithin (n + 1)) ts rest (pure s)
  | .assignment h hsemicolon, rest, n, _, hn => by
    have hassignment : Becomes (assignment expression true) _ rest _ := h.becomes_closed hsemicolon
    obtain ⟨t, us, rfl, ht⟩ := h.first
    rw [← statementOf_assignment ht] at hassignment
    exact statement_of_kind rfl hassignment
  | .block h, rest, n, _, hn => by
    have hblock := h.becomes hn
    obtain ⟨t, us, rfl, ht⟩ := h.first
    exact statement_of_kind ht hblock
  | .ifThen hword hc hb, rest, n, hrest, hn => by
    simp only [List.length_cons, List.length_append] at hn
    exact statement_of_kind hword (branch_ifThen hword hc (hb.becomes (by omega)) hrest)
  | .ifElse hword hc hb hother hb', rest, n, _, hn => by
    simp only [List.length_cons, List.length_append] at hn
    refine statement_of_kind hword
      (branch_ifElse hword hc hother (hb.becomes ?_) (hb'.becomes (by omega)))
    simp only [List.length_cons, List.length_append]
    omega
  | .forLoop hword hopening hi hfirst hc hsecond hu hclosing hb, rest, n, _, hn => by
    simp only [List.length_cons, List.length_append] at hn
    refine statement_of_kind hword
      (forLoop_becomes hword hopening hi hfirst hc hsecond hu hclosing (hb.becomes ?_))
    omega
  | .whileLoop hword hc hb, rest, n, _, hn => by
    simp only [List.length_cons, List.length_append] at hn
    exact statement_of_kind hword (whileLoop_becomes hword hc (hb.becomes (by omega)))
  | .ret hword hsemicolon, rest, n, _, hn =>
    statement_of_kind hword (returnStatement_ret hword hsemicolon)
  | .retValue hword he hsemicolon, rest, n, _, hn =>
    statement_of_kind hword (returnStatement_retValue hword he hsemicolon)

theorem Derives.Block.becomes {ts : List Token} {s : Node} : Block ts s →
    ∀ {rest : List Token} {n : Nat}, 3 * (ts.length + rest.length) + 1 ≤ n →
      Becomes (blockWithin n) ts rest (pure s)
  | .braces hopening h hclosing, rest, n, hn => by
    simp only [List.length_cons, List.length_append, List.length_nil] at hn
    obtain ⟨n, rfl⟩ := Nat.exists_eq_succ_of_ne_zero (show n ≠ 0 by omega)
    rw [blockWithin, braces]
    refine .here (.cons_bind (.expect hopening) ?_)
    refine .bind (h.becomes hclosing (.inl rfl) ?_) (.last (.expect hclosing) (.refl _ _))
    simp only [List.length_cons, List.length_append, List.length_nil]
    omega

/-- The tokens of some statements are read up to the given end. -/
theorem Derives.Program.becomes {ts : List Token} {ss : List Node} : Program ts ss →
    ∀ {rest : List Token} {n : Nat} {stop : Kind}, kindOf rest = stop → EndsStatements stop →
      3 * (ts.length + rest.length) + 3 ≤ n →
      Becomes (statementsWithin n stop) ts rest (pure ss)
  | .nil, rest, n, stop, hrest, _, hn => by
    obtain ⟨n, rfl⟩ := Nat.exists_eq_succ_of_ne_zero (show n ≠ 0 by omega)
    rw [statementsWithin]
    refine .kind ?_
    rw [List.nil_append, if_pos hrest]
    exact .refl _ _
  | .cons h h', rest, n, stop, hrest, hstop, hn => by
    rw [List.length_append] at hn
    obtain ⟨n, rfl⟩ := Nat.exists_eq_add_of_le' (show 2 ≤ n by omega)
    have hlength := h.length_pos
    rw [statementsWithin]
    refine .kind ?_
    rw [List.append_assoc, if_neg (hstop.ne_of_starts (h.starts _))]
    refine .bind (h.becomes (h'.kindOf_ne_else (hrest ▸ hstop)) ?_) ?_
    · rw [List.length_append]
      omega
    · exact .last (h'.becomes hrest hstop (by omega)) (.refl _ _)

end

/-- **Programs are read completely**, up to the end of input. -/
theorem Derives.Program.becomes_program {ts : List Token} {ss : List Node} (h : Program ts ss) :
    Becomes program ts [] (pure ss) := by
  refine .of_budget (statementsWithin · .endOfInput) (3 * ts.length + 3) (fun r => by rw [program])
    (by rw [List.append_nil]; omega) fun n hn => ?_
  exact h.becomes rfl (.inr rfl) (by rwa [List.length_nil, Nat.add_zero])

end ThreeAddress.Grammar
