import ThreeAddress.Grammar.Session
import ThreeAddress.Proofs.Grammar.Completeness

/-!
# Parsing is exact

Soundness and completeness together: the parser has a result for some tokens iff the grammar derives
it, and whatever the grammar does not derive is rejected.

* `parsing_exact`: the tokens of a source text are read as the one program that those before the end
  of input derive, and rejected if they derive none.
* `isStatement_of_ofSource`: what is read from a source text consists of statements.
-/

namespace ThreeAddress.Grammar

open Derives

/-- The tokens before the end of input. -/
def beforeEnd (tokens : List Token) : List Token := tokens.takeWhile (·.kind ≠ .endOfInput)

/-! ## Derived tokens -/

/-- Whether the grammar has a rule with tokens of this kind. -/
def isGrammatical : Kind → Bool
  | .comma | .unknown | .endOfInput => false
  | _ => true

theorem isGrammatical_of_isType {k : Kind} (h : k.isType = true) : isGrammatical k = true := by
  cases k <;> first | rfl | cases h

theorem isGrammatical_of_low {k : Kind} (h : isLowOperator k = true) : isGrammatical k = true := by
  cases k <;> first | rfl | cases h

theorem isGrammatical_of_high {k : Kind} (h : isHighOperator k = true) :
    isGrammatical k = true := by
  cases k <;> first | rfl | cases h

/-- The tokens are of kinds that the grammar has rules for. -/
def Grammatical (ts : List Token) : Prop := ∀ t ∈ ts, isGrammatical t.kind = true

namespace Grammatical

variable {t : Token} {ts us : List Token}

theorem nil : Grammatical [] := fun _ ht => absurd ht List.not_mem_nil

theorem cons (ht : isGrammatical t.kind = true) (h : Grammatical ts) : Grammatical (t :: ts) :=
  List.forall_mem_cons.2 ⟨ht, h⟩

theorem append (h : Grammatical ts) (h' : Grammatical us) : Grammatical (ts ++ us) :=
  List.forall_mem_append.2 ⟨h, h'⟩

theorem singleton (ht : isGrammatical t.kind = true) : Grammatical [t] := .cons ht .nil

theorem ne_endOfInput (h : Grammatical ts) (ht : t ∈ ts) : t.kind ≠ .endOfInput := by
  intro hend
  have hkind := h t ht
  rw [hend] at hkind
  cases hkind

theorem beforeEnd_eq (h : Grammatical ts) : beforeEnd ts = ts :=
  List.takeWhile_eq_self_iff.2 fun _ ht => decide_eq_true (h.ne_endOfInput ht)

end Grammatical

theorem Derives.Expression.grammatical {tier : Tier} {ts : List Token} {e : Node}
    (h : Expression tier ts e) : Grammatical ts := by
  induction h with
  | int hk | float hk | string hk | var hk => exact .singleton (hk ▸ rfl)
  | parens hopening _ hclosing ih =>
    exact .cons (hopening ▸ rfl) (ih.append (.singleton (hclosing ▸ rfl)))
  | ofFactor _ ih | ofTerm _ ih => exact ih
  | high _ hop _ ihl ihr => exact ihl.append (.cons (isGrammatical_of_high hop) ihr)
  | low _ hop _ ihl ihr => exact ihl.append (.cons (isGrammatical_of_low hop) ihr)

theorem Derives.Update.grammatical {ts : List Token} {s : Node} (h : Update ts s) :
    Grammatical ts := by
  cases h with
  | plain hname hsign hvalue =>
    exact .cons (hname ▸ rfl) (.cons (hsign ▸ rfl) hvalue.grammatical)
  | @typed type _ _ _ _ htype hname hsign hvalue =>
    exact .cons (isGrammatical_of_isType htype)
      (.cons (hname ▸ rfl) (.cons (hsign ▸ rfl) hvalue.grammatical))

theorem Derives.Condition.grammatical {ts : List Token} {e : Node} (h : Condition ts e) :
    Grammatical ts := by
  cases h with
  | parens hopening he hclosing =>
    exact .cons (hopening ▸ rfl) (he.grammatical.append (.singleton (hclosing ▸ rfl)))

mutual

theorem Derives.Statement.grammatical {ts : List Token} {s : Node} :
    Statement ts s → Grammatical ts
  | .assignment h hsemicolon => h.grammatical.append (.singleton (hsemicolon ▸ rfl))
  | .block h => h.grammatical
  | .ifThen hword hc hb => .cons (hword ▸ rfl) (hc.grammatical.append hb.grammatical)
  | .ifElse hword hc hb hother hb' =>
    .cons (hword ▸ rfl)
      (hc.grammatical.append (hb.grammatical.append (.cons (hother ▸ rfl) hb'.grammatical)))
  | .forLoop hword hopening hi hfirst hc hsecond hu hclosing hb =>
    .cons (hword ▸ rfl) (.cons (hopening ▸ rfl) (hi.grammatical.append (.cons (hfirst ▸ rfl)
      (hc.grammatical.append (.cons (hsecond ▸ rfl) (hu.grammatical.append
        (.cons (hclosing ▸ rfl) hb.grammatical)))))))
  | .whileLoop hword hc hb => .cons (hword ▸ rfl) (hc.grammatical.append hb.grammatical)
  | .ret hword hsemicolon => .cons (hword ▸ rfl) (.singleton (hsemicolon ▸ rfl))
  | .retValue hword he hsemicolon =>
    .cons (hword ▸ rfl) (he.grammatical.append (.singleton (hsemicolon ▸ rfl)))

theorem Derives.Block.grammatical {ts : List Token} {s : Node} : Block ts s → Grammatical ts
  | .braces hopening h hclosing =>
    .cons (hopening ▸ rfl) (h.grammatical.append (.singleton (hclosing ▸ rfl)))

theorem Derives.Program.grammatical {ts : List Token} {ss : List Node} :
    Program ts ss → Grammatical ts
  | .nil => .nil
  | .cons h h' => h.grammatical.append h'.grammatical

end

/-! ## Lists of tokens -/

/-- The first reader of a supply has the tokens before the end of input ahead. -/
theorem ofSupply_ahead {supply : Supply} {lines : List String} {r : Reader}
    (h : Reader.ofSupply supply lines = .ok r) :
    r.ahead = beforeEnd supply.upcoming ∧ r.supply.fault = supply.fault := by
  obtain ⟨upcoming, fault⟩ := supply
  cases upcoming with
  | cons t rest =>
    cases h
    exact ⟨rfl, rfl⟩
  | nil =>
    cases fault with
    | none =>
      cases h
      exact ⟨rfl, rfl⟩
    | some p => cases h

theorem ofTokens_eq (tokens : List Token) (lines : List String) :
    ∃ r : Reader, At r (beforeEnd tokens) ∧ ofTokens tokens lines = (run program r).1 := by
  cases tokens with
  | nil => exact ⟨⟨.endMark, ⟨[], none⟩, lines⟩, ⟨rfl, rfl⟩, rfl⟩
  | cons t rest => exact ⟨⟨t, ⟨rest, none⟩, lines⟩, ⟨rfl, rfl⟩, rfl⟩

/-- What is derived is read. -/
theorem ofTokens_of_derives {tokens : List Token} {ss : List Node}
    (h : Program (beforeEnd tokens) ss) (lines : List String) :
    ofTokens tokens lines = .ok ss := by
  obtain ⟨r, hr, heq⟩ := ofTokens_eq tokens lines
  rw [← List.append_nil (beforeEnd tokens)] at hr
  obtain ⟨r', hread, -⟩ := h.becomes_program r hr
  rw [heq, run, hread]
  rfl

theorem ofTokens_nil (lines : List String) : ofTokens [] lines = .ok [] :=
  ofTokens_of_derives (show Program (beforeEnd []) [] from .nil) lines

/-- What is read is derived, and what is not read is rejected. -/
theorem ofTokens_outcome {tokens : List Token} (hlexical : ∀ t ∈ tokens, t.Lexical)
    (lines : List String) :
    (∃ ss, ofTokens tokens lines = .ok ss ∧ Program (beforeEnd tokens) ss) ∨
      ∃ p, ofTokens tokens lines = .error p ∧ Misfit p.cause := by
  obtain ⟨r, hr, heq⟩ := ofTokens_eq tokens lines
  have hr_lexical : r.Lexical := by
    intro t ht
    rw [hr.ahead] at ht
    exact hlexical t ((List.takeWhile_sublist _).mem ht)
  have hread := program_takes r hr_lexical
  rw [heq, run]
  cases h : program r with
  | ok ss r' =>
    obtain ⟨ts, hm, hss, hend⟩ := hread.of_ok h
    have hahead := hm.ahead
    rw [hr.ahead, Reader.ahead_of_end hend, List.append_nil] at hahead
    exact .inl ⟨ss, rfl, hahead ▸ hss⟩
  | error p r' =>
    rcases hread.of_error h with hp | hfault
    · exact .inr ⟨p, rfl, hp⟩
    · rw [hr.fault] at hfault
      cases hfault

/-- **The grammar is unambiguous.** -/
theorem Derives.Program.unique {ts : List Token} {ss ss' : List Node} (h : Program ts ss)
    (h' : Program ts ss') : ss = ss' := by
  have hts := h.grammatical.beforeEnd_eq
  have hread := ofTokens_of_derives (hts.symm ▸ h) []
  have hread' := ofTokens_of_derives (hts.symm ▸ h') []
  rw [hread] at hread'
  cases hread'
  rfl

/-! ## Source texts -/

theorem lexical_of_result {source file : String} {tokens : List Token}
    (h : (Scan.ofSource source file).result = .ok tokens) : ∀ t ∈ tokens, t.Lexical := by
  unfold Scan.result at h
  split at h
  · cases h
    exact Scan.ofSource_lexical source file
  · cases h

/-- **Parsing is exact.** -/
theorem parsing_exact :
    (∀ source file tokens lines, (Scan.ofSource source file).result = .ok tokens →
      (∀ ss, ofTokens tokens lines = .ok ss ↔ Derives.Program (beforeEnd tokens) ss) ∧
      ((∃ p, ofTokens tokens lines = .error p ∧ Misfit p.cause) ↔
        ¬ ∃ ss, Derives.Program (beforeEnd tokens) ss)) ∧
    ∀ ts ss ss', Derives.Program ts ss → Derives.Program ts ss' → ss = ss' := by
  refine ⟨fun source file tokens lines h => ?_, fun ts ss ss' hss hss' => hss.unique hss'⟩
  rcases ofTokens_outcome (lexical_of_result h) lines with ⟨ss, hok, hss⟩ | ⟨p, herror, hp⟩
  · refine ⟨fun ss' => ⟨fun h' => ?_, fun h' => ?_⟩, fun h' => ?_, fun h' => ?_⟩
    · rw [hok] at h'
      cases h'
      exact hss
    · rw [hok, hss.unique h']
    · obtain ⟨p, herror, -⟩ := h'
      rw [hok] at herror
      cases herror
    · exact absurd ⟨ss, hss⟩ h'
  · have hnone : ¬ ∃ ss, Derives.Program (beforeEnd tokens) ss := by
      intro hderives
      obtain ⟨ss, hss⟩ := hderives
      rw [ofTokens_of_derives hss lines] at herror
      cases herror
    refine ⟨fun ss' => ⟨fun h' => ?_, fun h' => ?_⟩, fun _ => hnone, fun _ => ⟨p, herror, hp⟩⟩
    · rw [herror] at h'
      cases h'
    · exact absurd ⟨ss', h'⟩ hnone

/-- The tokens of `x=1;`. -/
def unitAssignment : List Token :=
  [⟨.identifier, "x", some ⟨"", 1, 1, 0⟩⟩, ⟨.assign, "=", some ⟨"", 1, 2, 1⟩⟩,
    ⟨.intLiteral, "1", some ⟨"", 1, 3, 2⟩⟩, ⟨.semicolon, ";", some ⟨"", 1, 4, 3⟩⟩,
    ⟨.endOfInput, "", some ⟨"", 1, 5, 4⟩⟩]

theorem unitAssignment_exact :
    (Scan.ofSource "x=1;" "").result = .ok unitAssignment ∧
      Derives.Program (beforeEnd unitAssignment)
        [.assign "x" (.int 1 (some ⟨"", 1, 3, 2⟩)) none (some ⟨"", 1, 1, 0⟩)] := by
  have hscan : (Scan.ofSource "x=1;" "").result = .ok unitAssignment := by decide
  exact ⟨hscan, ((parsing_exact.1 "x=1;" "" unitAssignment [] hscan).1 _).1 rfl⟩

/-- A source text that can be cut into tokens is read as its tokens are. -/
theorem ofSource_eq_ofTokens {source file : String} {tokens : List Token}
    (h : (Scan.ofSource source file).result = .ok tokens) :
    (ofSource source file).1 = ofTokens tokens (Text.lines source) := by
  have hsupply : (Scan.ofSource source file).supply = ⟨tokens, none⟩ := by
    unfold Scan.result at h
    split at h
    · next hfault =>
      cases h
      rw [Scan.supply, hfault]
    · cases h
  unfold ofSource ofSourceBy Session.start ofTokens ofTokensBy
  dsimp only
  rw [hsupply]
  cases Reader.ofSupply ⟨tokens, none⟩ (Text.lines source) with
  | error p => rfl
  | ok r => rfl

/-- **What is read from a source text consists of statements**, also where each token is taken only
when it is needed. -/
theorem isStatement_of_ofSource {source file : String} {ss : List Node} {taken : List Token}
    (h : ofSource source file = (.ok ss, taken)) : ∀ s ∈ ss, s.IsStatement := by
  unfold ofSource ofSourceBy Session.start at h
  dsimp only at h
  cases hr : Reader.ofSupply (Scan.ofSource source file).supply (Text.lines source) with
  | error p =>
    rw [hr] at h
    cases h
  | ok r =>
    rw [hr] at h
    have hr_lexical : r.Lexical := by
      intro t ht
      rw [(ofSupply_ahead hr).1] at ht
      exact Scan.ofSource_lexical source file t ((List.takeWhile_sublist _).mem ht)
    have hread := program_takes r hr_lexical
    have hresult : (run program r).1 = .ok ss := congrArg Prod.fst h
    unfold run at hresult
    cases hrun : program r with
    | error p r' =>
      rw [hrun] at hresult
      cases hresult
    | ok ss' r' =>
      rw [hrun] at hresult
      cases hresult
      obtain ⟨ts, -, hss, -⟩ := hread.of_ok hrun
      exact hss.isStatement

end ThreeAddress.Grammar
