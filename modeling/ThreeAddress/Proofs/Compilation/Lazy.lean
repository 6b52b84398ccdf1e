import ThreeAddress.Proofs.Compilation.Totality
import ThreeAddress.Proofs.Grammar.Parallel

/-!
# Tokens when they are needed

A source text can be parsed from all its tokens, or with each token read only when it is needed. The
two differ where a string is not closed: then there is no list of all tokens, but a problem of the
grammar may come up before the string does.

* `Scan.upTo_ne_endOfInput`, `Scan.upTo_placed`: the tokens in front of a fault.
* `ofSource_of_fault`: a text with a string that is not closed is refused, either for the string or
  at one of the tokens in front of it, and then whatever tokens follow.

**Theorem (`parseSource_lazy`).** If all tokens can be read, both ways agree. If not, compilation is
refused for the string, and parsing is refused for a problem of the grammar iff the tokens in front
of the string are, with any further tokens behind them.

The two runs go in step (`Parallel.outcome`) until the string comes up; what is rejected afterwards
is not among the tokens in front of it.
-/

namespace ThreeAddress

/-! ## In front of a fault -/

theorem Cursor.next_placed {c after : Cursor} {t : Token} (h : c.next = (.ok t, after)) :
    ∃ l, t.location = some l := by
  unfold next at h
  dsimp only at h
  split_ifs at h
  · split at h
    · cases h
      exact ⟨_, rfl⟩
    · split at h
      · cases h
        exact ⟨_, rfl⟩
      · cases h
  · cases h
    exact ⟨_, rfl⟩

namespace Scan

/-- The tokens of a source text have places. -/
theorem upTo_placed (n : Nat) (c : Cursor) : ∀ t ∈ (upTo n c).tokens, ∃ l, t.location = some l := by
  induction n generalizing c with
  | zero => exact fun t ht => absurd ht List.not_mem_nil
  | succ n ih =>
    rw [upTo]
    split
    · exact fun t ht => absurd ht List.not_mem_nil
    · next t after h =>
      split_ifs
      · exact List.forall_mem_singleton.2 (Cursor.next_placed h)
      · exact List.forall_mem_cons.2 ⟨Cursor.next_placed h, ih after⟩

/-- The end of input is not read in front of a fault. -/
theorem upTo_ne_endOfInput {n : Nat} {c : Cursor} {q : Problem} (h : (upTo n c).fault = some q) :
    ∀ t ∈ (upTo n c).tokens, t.kind ≠ .endOfInput := by
  induction n generalizing c with
  | zero => exact fun t ht => absurd ht List.not_mem_nil
  | succ n ih =>
    rw [upTo] at h ⊢
    split at h
    · exact fun t ht => absurd ht List.not_mem_nil
    · split at h
      · cases h
      · next hend =>
        rw [if_neg hend]
        exact List.forall_mem_cons.2 ⟨hend, ih h⟩

theorem fault_of_result {s : Scan} {q : Problem} (h : s.result = .error q) : s.fault = some q := by
  unfold result at h
  split at h
  · cases h
  · next hfault =>
    cases h
    exact hfault

end Scan

/-! ## Side by side -/

namespace Grammar

/-- The program that a supply of tokens is. -/
def ofSupply (supply : Supply) (lines : List String) : Except Problem (List Node) := do
  let r ← Reader.ofSupply supply lines
  (run program r).1

theorem ofSource_eq_ofSupply (source file : String) :
    (ofSource source file).1 = ofSupply (Scan.ofSource source file).supply (Text.lines source) := by
  unfold ofSource ofSourceBy Session.start ofSupply
  dsimp only
  cases Reader.ofSupply (Scan.ofSource source file).supply (Text.lines source) with
  | error p => rfl
  | ok r => rfl

/-- The tokens in front of a fault on the one hand, and with more tokens behind them on the
other. -/
def faultCourse (tokens : List Token) (q : Problem) (more : List Token) (lines : List String) :
    Course where
  place := id
  tokens := tokens
  fault := some q
  more := more
  more_eq_nil := nofun
  lines := lines
  lines' := lines

theorem faultCourse_inStep {t : Token} {ts more : List Token} {q : Problem} {lines : List String}
    (h : ∀ u ∈ t :: ts, u.Lexical) :
    InStep (faultCourse (t :: ts) q more lines) ⟨t, ⟨ts, some q⟩, lines⟩
      ⟨t, ⟨ts ++ more, none⟩, lines⟩ := by
  have hpaired : ∀ u ∈ t :: ts, u.Paired id u := fun u hu => (h u hu).paired rfl rfl rfl
  obtain ⟨ht, hts⟩ := List.forall_mem_cons.1 hpaired
  refine ⟨ht, ⟨ts, ?_, rfl⟩, rfl, rfl, fun _ u hu => hu, rfl, rfl⟩
  exact List.forall₂_same.2 hts

section Outcomes

variable {tokens more : List Token} {q : Problem} {lines : List String} {α : Type}
  {Goes : α → α → Prop} {p : Problem} {r : Reader} {o : EStateM.Result Problem Reader α}

theorem faultCourse_problem {r' : Reader} (h : InStep (faultCourse tokens q more lines) r r')
    (cause : Cause) : r.problem cause = r'.problem cause := by
  have hlocation : r.current.location = r'.current.location := h.current.location
  have hlines : r.lines = r'.lines := h.lines.trans h.lines'.symm
  rw [Reader.problem, Reader.problem, hlocation, hlines]

/-- A problem of the grammar comes up in both runs, at one of the tokens in front of the fault. -/
theorem Outcome.misfit (h : Outcome (faultCourse tokens q more lines) Goes (.error p r) o)
    (hp : Misfit p.cause) (hq : q.cause = .unterminatedString) :
    (∃ r', o = .error p r') ∧ ∃ t ∈ tokens, p.location = t.location := by
  cases h with
  | @rejected _ _ r' hstep =>
    refine ⟨⟨r', ?_⟩, r.current, hstep.mem nofun _ List.mem_cons_self, rfl⟩
    rw [faultCourse_problem hstep]
  | fault hfault =>
    cases hfault
    rw [hq] at hp
    cases hp
  | exhausted => cases hp

/-- If the first run ends in the fault, then the second one rejects none of the tokens. -/
theorem Outcome.unterminated {p' : Problem} {r' : Reader}
    (h : Outcome (faultCourse tokens q [] lines) Goes (.error q r) (.error p' r'))
    (hp' : Misfit p'.cause) (hq : q.cause = .unterminatedString) : p'.location = none := by
  generalize hp : (EStateM.Result.error q r : EStateM.Result Problem Reader α) = o at h
  cases h with
  | rejected hstep =>
    cases hp
    rw [← faultCourse_problem hstep, hq] at hp'
    cases hp'
  | fault _ hend => exact hend p' r' rfl rfl
  | exhausted =>
    cases hp
    cases hq

end Outcomes

section Runs

variable {t : Token} {ts : List Token} {q : Problem} {lines : List String}
  (hlexical : ∀ u ∈ t :: ts, u.Lexical)

include hlexical

theorem program_outcome (q : Problem) (lines : List String) (more : List Token) :
    Outcome (faultCourse (t :: ts) q more lines) (PairedAll id)
      (program ⟨t, ⟨ts, some q⟩, lines⟩) (program ⟨t, ⟨ts ++ more, none⟩, lines⟩) :=
  program_parallel.outcome (faultCourse_inStep hlexical)

/-- The parser comes to a result at the end of input only, and that is not in front of a fault. -/
theorem program_of_fault (hend : ∀ u ∈ t :: ts, u.kind ≠ .endOfInput) (q : Problem)
    (lines : List String) :
    ∃ p r, program ⟨t, ⟨ts, some q⟩, lines⟩ = .error p r ∧ (Misfit p.cause ∨ p = q) := by
  have hahead : Reader.Lexical ⟨t, ⟨ts, some q⟩, lines⟩ :=
    fun u hu => hlexical u ((List.takeWhile_sublist _).mem hu)
  have htakes := program_takes _ hahead
  have houtcome := program_outcome hlexical q lines []
  cases hrun : program ⟨t, ⟨ts, some q⟩, lines⟩ with
  | ok ss r =>
    obtain ⟨-, -, -, hkind⟩ := htakes.of_ok hrun
    rw [hrun] at houtcome
    obtain ⟨_, _, -, -, hstep⟩ := houtcome.of_ok
    exact absurd hkind (hend _ (hstep.mem nofun _ List.mem_cons_self))
  | error p r =>
    have hp := htakes.of_error hrun
    exact ⟨p, r, rfl, hp.imp_right fun hfault => (Option.some.inj hfault).symm⟩

/-- Where the parser runs into the fault, it rejects none of the tokens in front of it. -/
theorem location_of_fault {r : Reader} (hq : q.cause = .unterminatedString)
    (hrun : program ⟨t, ⟨ts, some q⟩, lines⟩ = .error q r) {p : Problem}
    (h : ofTokens (t :: ts) lines = .error p) : p.location = none := by
  have hmisfit : Misfit p.cause := by
    rcases ofTokens_outcome hlexical lines with ⟨ss, hok, -⟩ | ⟨p', herror, hp'⟩
    · rw [hok] at h
      cases h
    · rw [herror] at h
      cases h
      exact hp'
  have houtcome := program_outcome hlexical q lines []
  obtain ⟨r', hr'⟩ := run_eq_error_iff.1 h
  rw [List.append_nil, hrun, hr'] at houtcome
  exact houtcome.unterminated hmisfit hq

end Runs

/-- **Tokens in front of a string that is not closed** are rejected for the string, and then they
are not rejected at any of them; or they are rejected at one of them, whatever is behind them. -/
theorem ofSupply_of_fault {tokens : List Token} {q : Problem} (lines : List String)
    (hlexical : ∀ t ∈ tokens, t.Lexical) (hend : ∀ t ∈ tokens, t.kind ≠ .endOfInput)
    (hq : q.cause = .unterminatedString) :
    ∃ p, ofSupply ⟨tokens, some q⟩ lines = .error p ∧
      ((p = q ∧ ∀ p', ofTokens tokens lines = .error p' → p'.location = none) ∨
        (Misfit p.cause ∧ (∃ t ∈ tokens, p.location = t.location) ∧
          ∀ more, ofTokens (tokens ++ more) lines = .error p)) := by
  cases tokens with
  | nil =>
    refine ⟨q, rfl, .inl ⟨rfl, fun p hp => ?_⟩⟩
    rw [ofTokens_nil] at hp
    cases hp
  | cons t ts =>
    obtain ⟨p, r, hrun, hp⟩ := program_of_fault hlexical hend q lines
    refine ⟨p, run_eq_error_iff.2 ⟨r, hrun⟩, ?_⟩
    rcases hp with hmisfit | rfl
    · have hboth := program_outcome hlexical q lines
      simp only [hrun] at hboth
      refine .inr ⟨hmisfit, ((hboth []).misfit hmisfit hq).2, fun more => ?_⟩
      obtain ⟨⟨r', hr'⟩, -⟩ := (hboth more).misfit hmisfit hq
      exact run_eq_error_iff.2 ⟨r', hr'⟩
    · exact .inl ⟨rfl, fun p' hp' => location_of_fault hlexical hq hrun hp'⟩

end Grammar

/-! ## Source texts -/

theorem Grammar.Misfit.syntactic {c : Cause} (h : Misfit c) :
    Category.syntactic ∈ c.category.lineage := by
  cases h <;> exact List.mem_of_elem_eq_true rfl

theorem parseSource_run (source file : String) :
    (parseSource source file).run.1 = (Grammar.ofSource source file).1.mapError .problem := by
  rw [parseSource_unlimited]
  generalize Grammar.ofSource source file = read
  obtain ⟨result, taken⟩ := read
  cases result with
  | error p => rfl
  | ok ss => rfl

/-- A text is parsed to a program only if all its tokens can be read. -/
theorem parseSource_eq_ok_iff {source file : String} {ss : List Node} :
    (parseSource source file).run.1 = .ok ss ↔
      ∃ tokens, (Scan.ofSource source file).result = .ok tokens ∧
        Grammar.ofTokens tokens (Text.lines source) = .ok ss := by
  rw [parseSource_run, mapError_eq_ok_iff]
  cases hresult : (Scan.ofSource source file).result with
  | ok tokens =>
    rw [Grammar.ofSource_eq_ofTokens hresult]
    simp
  | error q =>
    have hfault := Scan.fault_of_result hresult
    obtain ⟨p, hp, -⟩ := Grammar.ofSupply_of_fault (Text.lines source)
      (Scan.ofSource_lexical source file) (Scan.upTo_ne_endOfInput hfault)
      (Scan.upTo_fault hfault)
    rw [Grammar.ofSource_eq_ofSupply, Scan.supply, hfault, hp]
    simp

/-- Compilation is refused for a string that is not closed, whatever stands in front of it. -/
theorem compile_of_fault {source file : String} {q : Problem}
    (h : (Scan.ofSource source file).result = .error q) (options : Options) :
    (compile options source file).run.1 = .error (.problem q) := by
  rw [compile_unlimited]
  dsimp only
  rw [h]
  rfl

/-- **Tokens are read in time.** -/
theorem parseSource_lazy (source file : String) :
    (∀ tokens, (Scan.ofSource source file).result = .ok tokens →
      (parseSource source file).run.1 =
        (Grammar.ofTokens tokens (Text.lines source)).mapError .problem) ∧
    ∀ q, (Scan.ofSource source file).result = .error q →
      (∀ options, (compile options source file).run.1 = .error (.problem q)) ∧
      q.cause = .unterminatedString ∧
      (∃ p, (parseSource source file).run.1 = .error (.problem p) ∧
        (p = q ∨ Category.syntactic ∈ p.cause.category.lineage ∧
          ∃ t ∈ (Scan.ofSource source file).tokens, p.location = t.location)) ∧
      ∀ p, Category.syntactic ∈ p.cause.category.lineage →
        ((parseSource source file).run.1 = .error (.problem p) ↔
          (∃ t ∈ (Scan.ofSource source file).tokens, p.location = t.location) ∧
          ∀ more, Grammar.ofTokens ((Scan.ofSource source file).tokens ++ more)
            (Text.lines source) = .error p) := by
  refine ⟨fun tokens h => ?_, fun q h => ?_⟩
  · rw [parseSource_run, Grammar.ofSource_eq_ofTokens h]
  · have hfault := Scan.fault_of_result h
    have hq := Scan.upTo_fault hfault
    have hsyntactic : ¬ Category.syntactic ∈ q.cause.category.lineage := by
      rw [hq]
      decide
    have hlexical := Scan.ofSource_lexical source file
    obtain ⟨p, hp, hcases⟩ := Grammar.ofSupply_of_fault (Text.lines source) hlexical
      (Scan.upTo_ne_endOfInput hfault) hq
    have hrun : (parseSource source file).run.1 = .error (.problem p) := by
      rw [parseSource_run, Grammar.ofSource_eq_ofSupply, Scan.supply, hfault, hp]
      rfl
    refine ⟨compile_of_fault h, hq, ⟨p, hrun, ?_⟩, fun p' hp' => ?_⟩
    · exact hcases.imp And.left fun hgrammar => ⟨hgrammar.1.syntactic, hgrammar.2.1⟩
    · rw [hrun]
      rcases hcases with ⟨rfl, hnone⟩ | ⟨-, hplace, hmore⟩
      · refine ⟨fun heq => ?_, fun hreject => ?_⟩
        · cases heq
          exact absurd hp' hsyntactic
        · obtain ⟨⟨t, ht, hlocation⟩, hmore⟩ := hreject
          obtain ⟨l, hl⟩ := Scan.upTo_placed _ _ t ht
          have hmore_nil := hmore []
          rw [List.append_nil] at hmore_nil
          rw [hnone p' hmore_nil, hl] at hlocation
          cases hlocation
      · refine ⟨fun heq => ?_, fun hreject => ?_⟩
        · cases heq
          exact ⟨hplace, hmore⟩
        · have hsame := (hmore []).symm.trans (hreject.2 [])
          cases hsame
          rfl

/-- What is wrong with `x=;"` before its string is. -/
def valueMissing : Problem :=
  ⟨.missingExpression "SEMICOLON ';'", some ⟨"", 1, 3, 2⟩, some "x=;\""⟩

/-- What is wrong with its string. -/
def quoteMissing : Problem := ⟨.unterminatedString, some ⟨"", 1, 4, 3⟩, some "x=;\""⟩

theorem valueMissing_first :
    (parseSource "x=1;" "").run.1 =
      (Grammar.ofTokens Grammar.unitAssignment (Text.lines "x=1;")).mapError .problem ∧
    (compile {} "x=;\"" "").run.1 = .error (.problem quoteMissing) ∧
    (parseSource "x=;\"" "").run.1 = .error (.problem valueMissing) ∧
    ∀ more, Grammar.ofTokens ((Scan.ofSource "x=;\"" "").tokens ++ more) (Text.lines "x=;\"") =
      .error valueMissing := by
  have hclosed : (Scan.ofSource "x=1;" "").result = .ok Grammar.unitAssignment := by decide
  have hopen : (Scan.ofSource "x=;\"" "").result = .error quoteMissing := by decide
  have hparse : (parseSource "x=;\"" "").run.1 = .error (.problem valueMissing) := by rfl
  obtain ⟨hcompile, -, -, hiff⟩ := (parseSource_lazy "x=;\"" "").2 quoteMissing hopen
  have hmore := ((hiff valueMissing (by decide)).1 hparse).2
  exact ⟨(parseSource_lazy "x=1;" "").1 _ hclosed, hcompile {}, hparse, hmore⟩

end ThreeAddress
