import ThreeAddress.Proofs.Grammar.Exactness

/-!
# Viable prefixes

What the parser has taken when it rejects a token can be continued to a program: at every point of
the grammar there are tokens with which the rules that are under way can be finished.

* `Phrases`: a set of lists of tokens, one of which at least can be written. Its lists `open` with
  what can be continued to one of them.
* `Passes`: the tokens between two readers; a reader whose tokens are `Sealed` never goes past them.
* `Fits`: the step takes a phrase, or it rejects the token behind the opening of one. Steps one
  after the other take phrases one after the other, and where the first one stops, any phrase of the
  second one goes on.
* `program_fits`: the parser takes a program or stops behind the opening of one.
-/

namespace ThreeAddress

/-! ## Readers on the way -/

namespace Reader

/-- The tokens that have not been taken. -/
def tokens (r : Reader) : List Token := r.current :: r.supply.upcoming

/-- The end of input is among the tokens, or a fault lies behind them. -/
def Sealed (r : Reader) : Prop := r.supply.fault = none → ∃ t ∈ r.tokens, t.kind = .endOfInput

end Reader

namespace Grammar

open Parse Derives

/-- The tokens have been taken between two readers; none of them is the end of input. -/
structure Passes (r : Reader) (ts : List Token) (r' : Reader) : Prop where
  tokens : r.tokens = ts ++ r'.tokens
  inner : ∀ t ∈ ts, t.kind ≠ .endOfInput
  fault : r'.supply.fault = r.supply.fault
  lines : r'.lines = r.lines

namespace Passes

variable {r r' r'' : Reader} {ts us : List Token}

theorem refl (r : Reader) : Passes r [] r := ⟨rfl, fun _ ht => absurd ht List.not_mem_nil, rfl, rfl⟩

theorem trans (h : Passes r ts r') (h' : Passes r' us r'') : Passes r (ts ++ us) r'' :=
  ⟨by rw [h.tokens, h'.tokens, List.append_assoc], List.forall_mem_append.2 ⟨h.inner, h'.inner⟩,
    h'.fault.trans h.fault, h'.lines.trans h.lines⟩

theorem size (h : Passes r ts r') : r.size = ts.length + r'.size := by
  have hlength := congrArg List.length h.tokens
  simpa [Reader.tokens, Reader.size] using hlength

theorem size_le (h : Passes r ts r') : r'.size ≤ r.size := by
  have hsize := h.size
  omega

theorem ahead (h : Passes r ts r') : r.ahead = ts ++ r'.ahead := by
  show r.tokens.takeWhile _ = _
  rw [h.tokens, List.takeWhile_append_of_pos fun t ht => decide_eq_true (h.inner t ht)]
  rfl

theorem lexical (h : Passes r ts r') (hr : r.Lexical) : r'.Lexical :=
  fun t ht => hr t (h.ahead ▸ List.mem_append_right ts ht)

theorem sealed (h : Passes r ts r') (hr : r.Sealed) : r'.Sealed := by
  intro hfault
  obtain ⟨t, ht, hend⟩ := hr (h.fault ▸ hfault)
  rw [h.tokens, List.mem_append] at ht
  exact ⟨t, ht.resolve_left fun ht => h.inner t ht hend, hend⟩

end Passes

/-- Taking a token passes it, unless it is the last one in front of a fault. -/
theorem advance_passes {r : Reader} (h : r.current.kind ≠ .endOfInput) (hr : r.Sealed) :
    (∃ r', advance r = .ok r.current r' ∧ Passes r [r.current] r') ∨
      ∃ p r', advance r = .error p r' ∧ r.supply.fault = some p ∧ r.ahead = [r.current] := by
  obtain ⟨current, ⟨upcoming, fault⟩, lines⟩ := r
  rw [advance, if_neg h]
  cases upcoming with
  | cons t rest => exact .inl ⟨_, rfl, rfl, List.forall_mem_singleton.2 h, rfl, rfl⟩
  | nil =>
    cases fault with
    | none =>
      obtain ⟨t, ht, hend⟩ := hr rfl
      rw [List.mem_singleton.1 ht] at hend
      exact absurd hend h
    | some p => exact .inr ⟨p, _, rfl, rfl, Reader.ahead_of_ne h⟩

/-! ## Phrases -/

/-- A set of lists of tokens, one of which can be written. -/
structure Phrases where
  Holds : List Token → Prop
  sample : ∃ ts, (∀ t ∈ ts, t.Lexical) ∧ Holds ts

/-- A text with tokens of all kinds that the grammar has rules for. -/
def wordList : String :=
  "int float string if else for while return x 1 1. \"\" = + - * / == != < > <= >= ( ) \x7b \x7d ;"

/-- Tokens of all kinds that the grammar has rules for can be written. -/
theorem exists_lexical {k : Kind} (h : isGrammatical k = true) :
    ∃ t : Token, t.Lexical ∧ t.kind = k := by
  have hall : ∀ k ∈ Kind.all, isGrammatical k = true →
      k ∈ (Scan.ofSource wordList "").tokens.map Token.kind := by decide +kernel
  obtain ⟨t, ht, hk⟩ := List.mem_map.1 (hall k k.mem_all h)
  exact ⟨t, Scan.ofSource_lexical wordList "" t ht, hk⟩

namespace Phrases

variable {A B : Phrases} {ts us : List Token}

/-- The tokens can be continued to a phrase. -/
def Opens (A : Phrases) (ts : List Token) : Prop :=
  ∃ more, (∀ t ∈ more, t.Lexical) ∧ A.Holds (ts ++ more)

/-- More phrases than the given ones. -/
def of (A : Phrases) (Holds : List Token → Prop) (h : ∀ ts, A.Holds ts → Holds ts) : Phrases :=
  ⟨Holds, A.sample.imp fun ts hts => ⟨hts.1, h ts hts.2⟩⟩

/-- A phrase and then another one. -/
def seq (A B : Phrases) : Phrases where
  Holds ts := ∃ us vs, ts = us ++ vs ∧ A.Holds us ∧ B.Holds vs
  sample := by
    obtain ⟨us, hus, hA⟩ := A.sample
    obtain ⟨vs, hvs, hB⟩ := B.sample
    exact ⟨us ++ vs, List.forall_mem_append.2 ⟨hus, hvs⟩, us, vs, rfl, hA, hB⟩

/-- A token of some kinds. -/
def one (accepts : Kind → Prop) (h : ∃ k, isGrammatical k = true ∧ accepts k) : Phrases where
  Holds ts := ∃ t, ts = [t] ∧ accepts t.kind
  sample := by
    obtain ⟨k, hk, haccepts⟩ := h
    obtain ⟨t, ht, rfl⟩ := exists_lexical hk
    exact ⟨[t], List.forall_mem_singleton.2 ht, t, rfl, haccepts⟩

/-- A token of a kind. -/
def token (k : Kind) (h : isGrammatical k = true) : Phrases := one (· = k) ⟨k, h, rfl⟩

/-- A phrase or nothing. -/
def optional (A : Phrases) : Phrases where
  Holds ts := ts = [] ∨ A.Holds ts
  sample := ⟨[], fun _ ht => absurd ht List.not_mem_nil, .inl rfl⟩

theorem Opens.seq_left (h : A.Opens ts) : (A.seq B).Opens ts := by
  obtain ⟨more, hmore, hA⟩ := h
  obtain ⟨vs, hvs, hB⟩ := B.sample
  refine ⟨more ++ vs, List.forall_mem_append.2 ⟨hmore, hvs⟩, ts ++ more, vs, ?_, hA, hB⟩
  rw [List.append_assoc]

theorem Opens.seq_right (hts : A.Holds ts) (h : B.Opens us) : (A.seq B).Opens (ts ++ us) := by
  obtain ⟨more, hmore, hB⟩ := h
  refine ⟨more, hmore, ts, us ++ more, ?_, hts, hB⟩
  rw [List.append_assoc]

theorem opens_nil (A : Phrases) : A.Opens [] := A.sample

end Phrases

/-! ## Steps and phrases -/

/-- The step takes a phrase. Or it rejects the token behind the opening of a phrase, or it finds a
fault behind such an opening. -/
def Fits {α : Type} (x : Parse α) (r : Reader) (A : Phrases) : Prop :=
  r.Lexical → r.Sealed → Meets x r (fun _ r' => ∃ ts, Passes r ts r' ∧ A.Holds ts) fun p r' =>
    (∃ ts cause, Passes r ts r' ∧ A.Opens ts ∧ Misfit cause ∧ p = r'.problem cause) ∨
      (r.supply.fault = some p ∧ A.Opens r.ahead)

namespace Fits

variable {α β : Type} {x : Parse α} {f : α → Parse β} {r : Reader} {A B : Phrases}

theorem congr {y : Parse α} (h : x r = y r) (hy : Fits y r A) : Fits x r A := by
  unfold Fits Meets at hy ⊢
  rwa [h]

theorem pure {a : α} (h : A.Holds []) : Fits (Pure.pure a) r A :=
  fun _ _ => .pure ⟨[], .refl r, h⟩

theorem reject {cause : Reader → Cause} (h : Misfit (cause r)) :
    Fits (Parse.reject cause : Parse α) r A :=
  fun _ _ => .inl ⟨[], cause r, .refl r, A.opens_nil, h, rfl⟩

/-- Looking at the reader takes no token. -/
theorem look {a : α} (hx : x r = .ok a r) (hf : Fits (f a) r A) : Fits (x >>= f) r A :=
  fun hr hs => .bind (.ok hx (hf hr hs))

/-- The tokens ahead are known to be tokens of a source text. -/
theorem of_lexical (h : r.Lexical → Fits x r A) : Fits x r A := fun hr => h hr hr

theorem mono (hx : Fits x r A) (h : ∀ ts, A.Holds ts → B.Holds ts) : Fits x r B := by
  have hopens : ∀ ts, A.Opens ts → B.Opens ts :=
    fun ts ⟨more, hmore, hA⟩ => ⟨more, hmore, h _ hA⟩
  refine fun hr hs => (hx hr hs).mono (fun _ r' ⟨ts, hm, hA⟩ => ⟨ts, hm, h ts hA⟩) fun p r' hp => ?_
  refine hp.imp (fun ⟨ts, cause, hm, hA, hcause⟩ => ⟨ts, cause, hm, hopens ts hA, hcause⟩) ?_
  exact fun ⟨hfault, hA⟩ => ⟨hfault, hopens _ hA⟩

/-- The next step takes a phrase behind that of the first one. -/
theorem bind (hx : Fits x r A)
    (hf : ∀ ts a r', Passes r ts r' → A.Holds ts → Fits (f a) r' B) :
    Fits (x >>= f) r (A.seq B) := by
  intro hr hs
  refine (hx hr hs).andThen ?_ fun p r' hp => ?_
  · rintro a r' ⟨ts, hm, hA⟩
    refine (hf ts a r' hm hA (hm.lexical hr) (hm.sealed hs)).mono ?_ ?_
    · rintro b r'' ⟨us, hm', hB⟩
      exact ⟨ts ++ us, hm.trans hm', ts, us, rfl, hA, hB⟩
    · rintro p r'' (⟨us, cause, hm', hB, hcause⟩ | ⟨hfault, hB⟩)
      · exact .inl ⟨ts ++ us, cause, hm.trans hm', .seq_right hA hB, hcause⟩
      · rw [hm.ahead]
        exact .inr ⟨hm.fault ▸ hfault, .seq_right hA hB⟩
  · refine hp.imp (fun ⟨ts, cause, hm, hA, hcause⟩ => ⟨ts, cause, hm, hA.seq_left, hcause⟩) ?_
    exact fun ⟨hfault, hA⟩ => ⟨hfault, hA.seq_left⟩

/-- A step and then its result in another form. -/
theorem map {g : α → β} (hx : Fits x r A) : Fits (x >>= fun a => Pure.pure (g a)) r A := by
  refine fun hr hs => (hx hr hs).andThen (fun a r' h => ?_) fun _ _ hp => hp
  exact Meets.pure h

/-- Taking a token that is a phrase. -/
theorem advance (hend : r.current.kind ≠ .endOfInput) (h : A.Holds [r.current]) :
    Fits Parse.advance r A := by
  intro _ hs
  rcases advance_passes hend hs with ⟨r', hx, hm⟩ | ⟨p, r', hx, hfault, hahead⟩
  · exact .ok hx ⟨_, hm, h⟩
  · rw [hahead]
    exact .error hx (.inr ⟨hfault, [], fun _ ht => absurd ht List.not_mem_nil, h⟩)

theorem expect (k : Kind) (h : isGrammatical k = true) :
    Fits (Parse.expect k) r (.token k h) := by
  unfold Parse.expect
  refine look rfl ?_
  by_cases hk : r.current.kind = k
  · rw [if_pos hk]
    refine advance (fun hend => ?_) ⟨_, rfl, hk⟩
    rw [← hk, hend] at h
    cases h
  · rw [if_neg hk]
    exact reject .unexpectedToken

end Fits

theorem Passes.size_lt_of_one {r r' : Reader} {ts : List Token} {accepts : Kind → Prop}
    {h : ∃ k, isGrammatical k = true ∧ accepts k} (hm : Passes r ts r')
    (hts : (Phrases.one accepts h).Holds ts) : r'.size < r.size := by
  obtain ⟨t, rfl, -⟩ := hts
  have hsize := hm.size
  rw [List.length_singleton] at hsize
  omega

/-! ## Expressions -/

/-- The expressions of a tier. -/
def Phrases.expression (tier : Tier) : Phrases :=
  .of (.token .identifier rfl) (fun ts => ∃ e, Expression tier ts e) <| by
    rintro ts ⟨t, rfl, ht⟩
    cases tier with
    | factor => exact ⟨_, .var ht⟩
    | term => exact ⟨_, .ofFactor (.var ht)⟩
    | expression => exact ⟨_, .ofTerm (.ofFactor (.var ht))⟩

/-- What can stand behind an expression of a tier so that it becomes another one. -/
def Phrases.more (tier : Tier) : Phrases where
  Holds us := ∀ ts e, Expression tier ts e → ∃ e', Expression tier (ts ++ us) e'
  sample := ⟨[], fun _ ht => absurd ht List.not_mem_nil, fun ts e he =>
    ⟨e, by rwa [List.append_nil]⟩⟩

/-- An integer literal that can be read is an expression. -/
theorem exists_int {t : Token} {value : Int} (ht : t.Lexical) (hk : t.kind = .intLiteral)
    (h : Literal.readInt? t.text.toList = some value) : ∃ e, Expression .factor [t] e := by
  obtain ⟨hne, hdigits⟩ := (hk ▸ ht.spelling (.inl hk)).digits
  obtain ⟨ds, hds, hlength⟩ := Literal.mapM_digitValue? hdigits
  rw [Literal.readInt?_eq hds hne] at h
  split_ifs at h with hlimit
  refine ⟨_, .int hk hds ?_ hlimit⟩
  rw [← List.length_pos_iff, hlength]
  exact List.length_pos_iff.2 hne

theorem intLiteral_fits {r : Reader} (hk : r.current.kind = .intLiteral) :
    Fits (intLiteral r.current) r (.expression .factor) := by
  have hend : r.current.kind ≠ .endOfInput := hk ▸ nofun
  refine .of_lexical fun hr => ?_
  unfold intLiteral
  split
  · next hvalue => exact .map (.advance hend (exists_int (hr.current hend) hk hvalue))
  · exact .reject .unreadableInteger

theorem floatLiteral_fits {r : Reader} (hk : r.current.kind = .floatLiteral) :
    Fits (floatLiteral r.current) r (.expression .factor) := by
  have hend : r.current.kind ≠ .endOfInput := hk ▸ nofun
  refine .of_lexical fun hr => ?_
  obtain ⟨x, hx⟩ := readFloat?_of_lexical (hr.current hend) hk
  unfold floatLiteral
  simp only [hx]
  exact .map (.advance hend ⟨_, .float hk hx⟩)

/-- A factor, if what stands in parentheses behind its first token is an expression. -/
theorem factor_fits {expression : Parse Node} {r : Reader}
    (h : ∀ r' : Reader, r'.size < r.size → Fits expression r' (.expression .expression)) :
    Fits (factor expression) r (.expression .factor) := by
  unfold factor
  refine .look rfl ?_
  dsimp only
  split
  · next hk => exact intLiteral_fits hk
  · next hk => exact floatLiteral_fits hk
  · next hk => exact .map (.advance (hk ▸ nofun) ⟨_, .string hk⟩)
  · next hk => exact .map (.advance (hk ▸ nofun) ⟨_, .var hk⟩)
  · next hk =>
    have hopening : Fits advance r (.token .leftParen rfl) :=
      .advance (hk ▸ nofun) ⟨_, rfl, hk⟩
    refine (hopening.bind fun ts _ r₁ hm hts =>
      (h r₁ (hm.size_lt_of_one hts)).bind fun _ _ _ _ _ =>
        (Fits.expect .rightParen rfl).map).mono ?_
    rintro _ ⟨_, _, rfl, ⟨opening, rfl, hopening⟩, ts, _, rfl, ⟨e, he⟩, closing, rfl, hclosing⟩
    exact ⟨e, .parens hopening he hclosing⟩
  · exact .reject .unexpectedToken

/-- What the functions for expressions take within a budget. -/
structure FitsWithin (n : Nat) : Prop where
  expression : ∀ r : Reader, 2 * r.size + 2 ≤ n →
    Fits (expressionWithin n) r (.expression .expression)
  moreTerms : ∀ (r : Reader) (left : Node), 2 * r.size + 1 ≤ n →
    Fits (moreTermsWithin n left) r (.more .expression)
  term : ∀ r : Reader, 2 * r.size + 1 ≤ n → Fits (termWithin n) r (.expression .term)
  moreFactors : ∀ (r : Reader) (left : Node), 2 * r.size + 1 ≤ n →
    Fits (moreFactorsWithin n left) r (.more .term)

theorem Passes.size_lt_of_expression {r r' : Reader} {ts : List Token} {tier : Tier}
    (hm : Passes r ts r') (hts : (Phrases.expression tier).Holds ts) : r'.size < r.size := by
  obtain ⟨e, he⟩ := hts
  have hsize := hm.size
  have hpos := he.length_pos
  omega

theorem Phrases.more_nil (tier : Tier) : (more tier).Holds [] := by
  intro ts e he
  exact ⟨e, by rwa [List.append_nil]⟩

theorem fitsWithin (n : Nat) : FitsWithin n := by
  induction n with
  | zero => exact ⟨fun _ h => by omega, fun _ _ h => by omega, fun _ h => by omega,
      fun _ _ h => by omega⟩
  | succ n ih =>
    refine ⟨fun r hn => ?_, fun r left hn => ?_, fun r hn => ?_, fun r left hn => ?_⟩
    · rw [expressionWithin]
      refine (Fits.bind (B := .more .expression) (ih.term r (by omega)) ?_).mono ?_
      · intro ts left r₁ hm hts
        have hsize := hm.size_lt_of_expression hts
        exact ih.moreTerms r₁ left (by omega)
      · rintro _ ⟨ts, us, rfl, ⟨e, he⟩, hmore⟩
        exact hmore ts e (.ofTerm he)
    · rw [moreTermsWithin]
      refine .look rfl ?_
      by_cases hop : isLowOperator r.current.kind = true
      · rw [if_pos hop]
        have hoperator : Fits advance r (.one (isLowOperator · = true) ⟨.plus, rfl, rfl⟩) :=
          .advance (ne_endOfInput_of_low hop) ⟨_, rfl, hop⟩
        refine (hoperator.bind (B := .seq (.expression .term) (.more .expression)) ?_).mono ?_
        · intro ts op r₁ hm₁ hts₁
          have hsize₁ := hm₁.size_lt_of_one hts₁
          refine (ih.term r₁ (by omega)).bind fun us right r₂ hm₂ hts₂ => ?_
          have hsize₂ := hm₂.size_lt_of_expression hts₂
          exact ih.moreTerms r₂ _ (by omega)
        · rintro _ ⟨_, _, rfl, ⟨op, rfl, hop⟩, us, vs, rfl, ⟨right, hright⟩, hmore⟩ ts left hleft
          have hboth := hmore _ _ (.low hleft hop hright)
          simpa using hboth
      · rw [if_neg hop]
        exact .pure (Phrases.more_nil _)
    · rw [termWithin]
      have hfactor : Fits (factor (expressionWithin n)) r (.expression .factor) :=
        factor_fits fun r' hr' => ih.expression r' (by omega)
      refine (hfactor.bind (B := .more .term) ?_).mono ?_
      · intro ts left r₁ hm hts
        have hsize := hm.size_lt_of_expression hts
        exact ih.moreFactors r₁ left (by omega)
      · rintro _ ⟨ts, us, rfl, ⟨e, he⟩, hmore⟩
        exact hmore ts e (.ofFactor he)
    · rw [moreFactorsWithin]
      refine .look rfl ?_
      by_cases hop : isHighOperator r.current.kind = true
      · rw [if_pos hop]
        have hoperator : Fits advance r (.one (isHighOperator · = true) ⟨.times, rfl, rfl⟩) :=
          .advance (ne_endOfInput_of_high hop) ⟨_, rfl, hop⟩
        refine (hoperator.bind (B := .seq (.expression .factor) (.more .term)) ?_).mono ?_
        · intro ts op r₁ hm₁ hts₁
          have hsize₁ := hm₁.size_lt_of_one hts₁
          have hfactor : Fits (factor (expressionWithin n)) r₁ (.expression .factor) :=
            factor_fits fun r' hr' => ih.expression r' (by omega)
          refine hfactor.bind fun us right r₂ hm₂ hts₂ => ?_
          have hsize₂ := hm₂.size_lt_of_expression hts₂
          exact ih.moreFactors r₂ _ (by omega)
        · rintro _ ⟨_, _, rfl, ⟨op, rfl, hop⟩, us, vs, rfl, ⟨right, hright⟩, hmore⟩ ts left hleft
          have hboth := hmore _ _ (.high hleft hop hright)
          simpa using hboth
      · rw [if_neg hop]
        exact .pure (Phrases.more_nil _)

theorem expression_fits (r : Reader) : Fits expression r (.expression .expression) := by
  refine .congr (y := expressionWithin (4 * (r.size + 1))) (by rw [expression]) ?_
  exact (fitsWithin _).expression r (by omega)

/-! ## Statements -/

namespace Phrases

def condition : Phrases :=
  .of (.seq (.token .leftParen rfl) (.seq (.expression .expression) (.token .rightParen rfl)))
    (fun ts => ∃ c, Condition ts c) <| by
    rintro _ ⟨_, _, rfl, ⟨opening, rfl, hopening⟩, ts, _, rfl, ⟨e, he⟩, closing, rfl, hclosing⟩
    exact ⟨e, .parens hopening he hclosing⟩

def update : Phrases :=
  .of (.seq (.token .identifier rfl) (.seq (.token .assign rfl) (.expression .expression)))
    (fun ts => ∃ s, Update ts s) <| by
    rintro _ ⟨_, _, rfl, ⟨name, rfl, hname⟩, _, ts, rfl, ⟨sign, rfl, hsign⟩, value, hvalue⟩
    exact ⟨_, .plain hname hsign hvalue⟩

/-- What ends an assignment. -/
def closing : Bool → Phrases
  | true => token .semicolon rfl
  | false => ⟨(· = []), [], fun _ ht => absurd ht List.not_mem_nil, rfl⟩

def block : Phrases :=
  .of (.seq (.token .leftBrace rfl) (.token .rightBrace rfl)) (fun ts => ∃ b, Block ts b) <| by
    rintro _ ⟨_, _, rfl, ⟨opening, rfl, hopening⟩, closing, rfl, hclosing⟩
    exact ⟨_, .braces hopening .nil hclosing⟩

def statement : Phrases :=
  .of block (fun ts => ∃ s, Statement ts s) fun _ ⟨b, hb⟩ => ⟨b, .block hb⟩

def program : Phrases :=
  ⟨fun ts => ∃ ss, Program ts ss, [], fun _ ht => absurd ht List.not_mem_nil, [], .nil⟩

end Phrases

theorem condition_fits (r : Reader) : Fits (condition expression) r .condition := by
  unfold condition
  refine ((Fits.expect .leftParen rfl).bind fun _ _ r₁ _ _ => (expression_fits r₁).bind
    fun _ _ _ _ _ => (Fits.expect .rightParen rfl).map).mono ?_
  rintro _ ⟨_, _, rfl, ⟨opening, rfl, hopening⟩, ts, _, rfl, ⟨e, he⟩, closing, rfl, hclosing⟩
  exact ⟨e, .parens hopening he hclosing⟩

/-- A type in front of an assignment, if there is one. -/
def Phrases.type : Phrases := .optional (.one (·.isType = true) ⟨.intType, rfl, rfl⟩)

theorem declaredType_fits (r : Reader) : Fits declaredType r .type := by
  unfold declaredType
  refine .look rfl ?_
  by_cases htype : r.current.kind.isType = true
  · rw [if_pos htype]
    refine .map (.advance (fun hend => ?_) (.inr ⟨_, rfl, htype⟩))
    rw [hend] at htype
    cases htype
  · rw [if_neg htype]
    exact .pure (.inl rfl)

theorem assignment_fits (closed : Bool) (r : Reader) :
    Fits (assignment expression closed) r (.seq .update (.closing closed)) := by
  have hparts : Fits (assignment expression closed) r (.seq .type (.seq (.token .identifier rfl)
      (.seq (.token .assign rfl) (.seq (.expression .expression) (.closing closed))))) := by
    unfold assignment
    refine .look rfl ?_
    refine (declaredType_fits r).bind fun _ _ _ _ _ => ?_
    refine (Fits.expect .identifier rfl).bind fun _ _ _ _ _ => ?_
    refine (Fits.expect .assign rfl).bind fun _ _ r₁ _ _ => ?_
    refine .look rfl ?_
    split
    · exact .reject .missingExpression
    · refine (expression_fits r₁).bind fun _ _ _ _ _ => ?_
      cases closed with
      | false => exact .pure rfl
      | true => exact (Fits.expect .semicolon rfl).map
  refine hparts.mono ?_
  rintro _ ⟨type, _, rfl, htype, _, _, rfl, ⟨name, rfl, hname⟩, _, _, rfl, ⟨sign, rfl, hsign⟩,
    ts, end', rfl, ⟨value, hvalue⟩, hend⟩
  refine ⟨type ++ name :: sign :: ts, end', by simp, ?_, hend⟩
  rcases htype with rfl | ⟨t, rfl, ht⟩
  · exact ⟨_, .plain hname hsign hvalue⟩
  · exact ⟨_, .typed ht hname hsign hvalue⟩

theorem returnStatement_fits (r : Reader) : Fits (returnStatement expression) r .statement := by
  have hparts : Fits (returnStatement expression) r (.seq (.token .returnWord rfl)
      (.seq (.optional (.expression .expression)) (.token .semicolon rfl))) := by
    unfold returnStatement
    refine .look rfl ?_
    refine (Fits.expect .returnWord rfl).bind fun _ _ r₁ _ _ => ?_
    refine .look rfl ?_
    split
    · refine (Fits.map (Fits.expect .semicolon rfl)).mono fun ts hts => ?_
      exact ⟨[], ts, rfl, .inl rfl, hts⟩
    · refine ((expression_fits r₁).bind fun _ _ _ _ _ =>
        (Fits.expect .semicolon rfl).map).mono ?_
      rintro _ ⟨ts, us, rfl, hts, hus⟩
      exact ⟨ts, us, rfl, .inr hts, hus⟩
  refine hparts.mono ?_
  rintro _ ⟨_, _, rfl, ⟨word, rfl, hword⟩, ts, _, rfl, hts, semicolon, rfl, hsemicolon⟩
  rcases hts with rfl | ⟨e, he⟩
  · exact ⟨_, .ret hword hsemicolon⟩
  · exact ⟨_, .retValue hword he hsemicolon⟩

section Blocks

/-! The statements that have blocks, if what is taken as a block is one. -/

variable {block : Parse Node} {r : Reader}
  (h : ∀ r' : Reader, r'.size < r.size → Fits block r' .block)

include h

theorem branch_fits : Fits (branch expression block) r .statement := by
  have hparts : Fits (branch expression block) r (.seq (.token .ifWord rfl) (.seq .condition
      (.seq .block (.optional (.seq (.token .elseWord rfl) .block))))) := by
    unfold branch
    refine .look rfl ?_
    refine (Fits.expect .ifWord rfl).bind fun _ _ r₁ hm₁ hts₁ => ?_
    have hsize₁ := hm₁.size_lt_of_one hts₁
    refine (condition_fits r₁).bind fun _ _ r₂ hm₂ _ => ?_
    have hsize₂ := hm₂.size_le
    refine (h r₂ (by omega)).bind fun _ _ r₃ hm₃ _ => ?_
    have hsize₃ := hm₃.size_le
    refine .look rfl ?_
    split
    · next hother =>
      have hother : Fits advance r₃ (.token .elseWord rfl) :=
        .advance (hother ▸ nofun) ⟨_, rfl, hother⟩
      refine (hother.bind fun _ _ r₄ hm₄ _ => ?_).mono fun ts hts => .inr hts
      have hsize₄ := hm₄.size_le
      exact (h r₄ (by omega)).map
    · exact .pure (.inl rfl)
  refine hparts.mono ?_
  rintro _ ⟨_, _, rfl, ⟨word, rfl, hword⟩, cs, _, rfl, ⟨c, hc⟩, ts, us, rfl, ⟨b, hb⟩, hus⟩
  rcases hus with rfl | ⟨_, vs, rfl, ⟨other, rfl, hother⟩, b', hb'⟩
  · rw [List.append_nil]
    have hs := Derives.Statement.ifThen hword hc hb
    exact ⟨_, hs⟩
  · exact ⟨_, .ifElse hword hc hb hother hb'⟩

theorem whileLoop_fits : Fits (whileLoop expression block) r .statement := by
  have hparts : Fits (whileLoop expression block) r
      (.seq (.token .whileWord rfl) (.seq .condition .block)) := by
    unfold whileLoop
    refine .look rfl ?_
    refine (Fits.expect .whileWord rfl).bind fun _ _ r₁ hm₁ hts₁ => ?_
    have hsize₁ := hm₁.size_lt_of_one hts₁
    refine (condition_fits r₁).bind fun _ _ r₂ hm₂ _ => ?_
    have hsize₂ := hm₂.size_le
    exact (h r₂ (by omega)).map
  refine hparts.mono ?_
  rintro _ ⟨_, _, rfl, ⟨word, rfl, hword⟩, cs, ts, rfl, ⟨c, hc⟩, b, hb⟩
  have hs := Derives.Statement.whileLoop hword hc hb
  exact ⟨_, hs⟩

theorem forLoop_fits :
    Fits (forLoop expression (assignment expression) block) r .statement := by
  have hparts : Fits (forLoop expression (assignment expression) block) r
      (.seq (.token .forWord rfl) (.seq (.token .leftParen rfl)
        (.seq (.seq .update (.closing true)) (.seq (.expression .expression)
          (.seq (.token .semicolon rfl) (.seq (.seq .update (.closing false))
            (.seq (.token .rightParen rfl) .block))))))) := by
    unfold forLoop
    refine .look rfl ?_
    refine (Fits.expect .forWord rfl).bind fun _ _ r₁ hm₁ hts₁ => ?_
    have hsize₁ := hm₁.size_lt_of_one hts₁
    refine (Fits.expect .leftParen rfl).bind fun _ _ r₂ hm₂ _ => ?_
    have hsize₂ := hm₂.size_le
    refine (assignment_fits true r₂).bind fun _ _ r₃ hm₃ _ => ?_
    have hsize₃ := hm₃.size_le
    refine (expression_fits r₃).bind fun _ _ r₄ hm₄ _ => ?_
    have hsize₄ := hm₄.size_le
    refine (Fits.expect .semicolon rfl).bind fun _ _ r₅ hm₅ _ => ?_
    have hsize₅ := hm₅.size_le
    refine (assignment_fits false r₅).bind fun _ _ r₆ hm₆ _ => ?_
    have hsize₆ := hm₆.size_le
    refine (Fits.expect .rightParen rfl).bind fun _ _ r₇ hm₇ _ => ?_
    have hsize₇ := hm₇.size_le
    exact (h r₇ (by omega)).map
  refine hparts.mono ?_
  rintro _ ⟨_, _, rfl, ⟨word, rfl, hword⟩, _, _, rfl, ⟨opening, rfl, hopening⟩,
    _, _, rfl, ⟨is, _, rfl, ⟨i, hi⟩, first, rfl, hfirst⟩, cs, _, rfl, ⟨c, hc⟩,
    _, _, rfl, ⟨second, rfl, hsecond⟩, _, _, rfl, ⟨us, _, rfl, ⟨u, hu⟩, rfl⟩,
    _, ts, rfl, ⟨closing, rfl, hclosing⟩, b, hb⟩
  have hs := Derives.Statement.forLoop hword hopening hi hfirst hc hsecond hu hclosing hb
  rw [List.append_assoc is, List.append_nil us]
  exact ⟨_, hs⟩

end Blocks

/-- What the functions for statements take within a budget. -/
structure FitsStatements (n : Nat) : Prop where
  statement : ∀ r : Reader, 3 * r.size + 2 ≤ n → Fits (statementWithin n) r .statement
  block : ∀ r : Reader, 3 * r.size + 1 ≤ n → Fits (blockWithin n) r .block
  statements : ∀ (r : Reader) (stop : Kind), 3 * r.size + 3 ≤ n →
    Fits (statementsWithin n stop) r .program

theorem fitsStatements (n : Nat) : FitsStatements n := by
  induction n with
  | zero => exact ⟨fun _ h => by omega, fun _ h => by omega, fun _ _ h => by omega⟩
  | succ n ih =>
    refine ⟨fun r hn => ?_, fun r hn => ?_, fun r stop hn => ?_⟩
    · rw [statementWithin]
      have hblock : ∀ r' : Reader, r'.size < r.size → Fits (blockWithin n) r' .block :=
        fun r' hr' => ih.block r' (by omega)
      refine .look rfl ?_
      split
      · exact branch_fits hblock
      · exact forLoop_fits hblock
      · exact whileLoop_fits hblock
      · exact returnStatement_fits r
      · exact (ih.block r (by omega)).mono fun _ ⟨b, hb⟩ => ⟨b, .block hb⟩
      · refine (assignment_fits true r).mono ?_
        rintro _ ⟨us, _, rfl, ⟨s, hs⟩, semicolon, rfl, hsemicolon⟩
        exact ⟨s, .assignment hs hsemicolon⟩
    · rw [blockWithin, braces]
      refine .look rfl ?_
      refine ((Fits.expect .leftBrace rfl).bind (B := .seq .program (.token .rightBrace rfl))
        fun ts _ r₁ hm₁ hts₁ => ?_).mono ?_
      · have hsize₁ := hm₁.size_lt_of_one hts₁
        exact (ih.statements r₁ .rightBrace (by omega)).bind fun _ _ _ _ _ =>
          (Fits.expect .rightBrace rfl).map
      · rintro _ ⟨_, _, rfl, ⟨opening, rfl, hopening⟩, ts, _, rfl, ⟨ss, hss⟩, closing, rfl,
          hclosing⟩
        exact ⟨_, .braces hopening hss hclosing⟩
    · rw [statementsWithin]
      refine .look rfl ?_
      by_cases hstop : r.current.kind = stop
      · rw [if_pos hstop]
        exact .pure ⟨[], .nil⟩
      · rw [if_neg hstop]
        refine ((ih.statement r (by omega)).bind (B := .program) fun ts _ r₁ hm₁ hts₁ => ?_).mono ?_
        · obtain ⟨s, hs⟩ := hts₁
          have hpos := hs.length_pos
          have hsize₁ := hm₁.size
          exact (ih.statements r₁ stop (by omega)).map
        · rintro _ ⟨ts, us, rfl, ⟨s, hs⟩, ss, hss⟩
          exact ⟨s :: ss, .cons hs hss⟩

/-- **The parser stops behind viable prefixes**: it takes a program, or what it has taken is the
opening of one. -/
theorem program_fits (r : Reader) : Fits program r .program := by
  refine .congr (y := statementsWithin (4 * (r.size + 1)) .endOfInput) (by rw [program]) ?_
  exact (fitsStatements _).statements r .endOfInput (by omega)

end Grammar

end ThreeAddress
