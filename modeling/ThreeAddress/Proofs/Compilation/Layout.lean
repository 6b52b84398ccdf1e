import ThreeAddress.Proofs.Compilation.Agreement
import ThreeAddress.Proofs.Compilation.Totality
import ThreeAddress.Proofs.Grammar.Parallel
import ThreeAddress.Proofs.Token.Seam

/-!
# Layout

Blanks, comments and the name of the file are in a program as places only.

* `ofTokens_agrees`: the parser on two lists of the same words.
* `Compilation.Same`: compilations that differ in places only.

**Theorem (`compile_layout`).** Two source texts with the same words are compiled to the same code,
or refused for the same cause.

The parser goes through the two lists in step (`Parallel.outcome`); the other phases do not look at
places (`check_unplaced`, `fold_unplaced`, `statement_unplaced`).
-/

namespace ThreeAddress

/-! ## Parsing -/

namespace Grammar

/-- Two lists of the same words. -/
def wordCourse (lines lines' : List String) : Course where
  place _ := none
  tokens := []
  fault := none
  more := []
  more_eq_nil _ := rfl
  lines := lines
  lines' := lines'

theorem wordCourse_inStep {t t' : Token} {ts ts' : List Token} {lines lines' : List String}
    (h : List.Forall₂ (Token.Paired fun _ => none) (t :: ts) (t' :: ts')) :
    InStep (wordCourse lines lines') ⟨t, ⟨ts, none⟩, lines⟩ ⟨t', ⟨ts', none⟩, lines'⟩ := by
  obtain ⟨ht, hts⟩ := List.forall₂_cons.1 h
  exact ⟨ht, ⟨ts', hts, (List.append_nil ts').symm⟩, rfl, rfl, fun h => absurd rfl h, rfl, rfl⟩

/-- Without a fault, both runs reject the same token. -/
theorem Outcome.of_error {c : Course} {α β : Type} {Goes : α → β → Prop} {p : Problem}
    {r : Reader} {o : EStateM.Result Problem Reader β} (h : Outcome c Goes (.error p r) o)
    (hfault : c.fault = none) (hp : Misfit p.cause) :
    ∃ p' r', o = .error p' r' ∧ p.unplaced = p'.unplaced := by
  cases h with
  | rejected => exact ⟨_, _, rfl, rfl⟩
  | fault h =>
    rw [hfault] at h
    cases h
  | exhausted => cases hp

theorem forall₂_paired {tokens tokens' : List Token} (hlexical : ∀ t ∈ tokens, t.Lexical)
    (hwords : tokens.map Token.word = tokens'.map Token.word) :
    List.Forall₂ (Token.Paired fun _ => none) tokens tokens' := by
  induction tokens generalizing tokens' with
  | nil =>
    rw [List.map_eq_nil_iff.1 hwords.symm]
    exact .nil
  | cons t ts ih =>
    obtain ⟨t', ts', rfl, ht, hts⟩ := List.map_eq_cons_iff.1 hwords.symm
    obtain ⟨hlexical, hlexical'⟩ := List.forall_mem_cons.1 hlexical
    obtain ⟨hkind, htext⟩ := Prod.mk.inj ht
    exact .cons (hlexical.paired hkind.symm htext.symm rfl) (ih hlexical' hts.symm)

/-- **The parser does not look at places.** -/
theorem ofTokens_agrees {tokens tokens' : List Token} (hlexical : ∀ t ∈ tokens, t.Lexical)
    (hwords : tokens.map Token.word = tokens'.map Token.word) (lines lines' : List String) :
    (∃ ss ss', ofTokens tokens lines = .ok ss ∧ ofTokens tokens' lines' = .ok ss' ∧
      ss.map Node.unplaced = ss'.map Node.unplaced) ∨
    ∃ p p', ofTokens tokens lines = .error p ∧ ofTokens tokens' lines' = .error p' ∧
      p.unplaced = p'.unplaced := by
  cases tokens with
  | nil =>
    rw [List.map_eq_nil_iff.1 hwords.symm]
    exact .inl ⟨[], [], ofTokens_nil lines, ofTokens_nil lines', rfl⟩
  | cons t ts =>
    obtain ⟨t', ts', rfl, -, -⟩ := List.map_eq_cons_iff.1 hwords.symm
    have houtcome : Outcome (wordCourse lines lines') (PairedAll fun _ => none)
        (program ⟨t, ⟨ts, none⟩, lines⟩) (program ⟨t', ⟨ts', none⟩, lines'⟩) :=
      program_parallel.outcome (wordCourse_inStep (forall₂_paired hlexical hwords))
    rcases ofTokens_outcome hlexical lines with ⟨ss, hok, -⟩ | ⟨p, herror, hp⟩
    · obtain ⟨s, hs⟩ := run_eq_ok_iff.1 hok
      rw [hs] at houtcome
      obtain ⟨ss', s', hs', hss, -⟩ := houtcome.of_ok
      exact .inl ⟨ss, ss', hok, run_eq_ok_iff.2 ⟨s', hs'⟩, hss⟩
    · obtain ⟨s, hs⟩ := run_eq_error_iff.1 herror
      rw [hs] at houtcome
      obtain ⟨p', s', hs', hcause⟩ := houtcome.of_error rfl hp
      exact .inr ⟨p, p', herror, run_eq_error_iff.2 ⟨s', hs'⟩, hcause⟩

end Grammar

/-! ## Compilation -/

/-- The compilations are the same but for places. -/
structure Compilation.Same (c c' : Compilation) : Prop where
  program : c.program.map Node.unplaced = c'.program.map Node.unplaced
  symbols : c.symbols = c'.symbols
  optimized : c.optimized.map Node.unplaced = c'.optimized.map Node.unplaced
  code : c.code = c'.code

/-- The code that is made of two programs that are the same but for places. -/
theorem lowering_agrees {file file' : String} {tokens tokens' : List Token}
    {program program' optimized optimized' : List Node} {symbols : Option Symbols}
    (hprogram : program.map Node.unplaced = program'.map Node.unplaced)
    (hoptimized : optimized.map Node.unplaced = optimized'.map Node.unplaced) :
    Agrees unseen Compilation.Same
      (do
        let code ← Work.take (Lowering.generateAll optimized)
        Work.tell (.lineCount file code.length)
        return { file, finished := true, tokens, program, symbols, optimized, code })
      (do
        let code ← Work.take (Lowering.generateAll optimized')
        Work.tell (.lineCount file' code.length)
        return {
          file := file', finished := true, tokens := tokens', program := program', symbols,
          optimized := optimized', code }) := by
  rw [generateAll_congr hoptimized]
  refine (take_agrees _).bind fun code _ hcode => ?_
  subst hcode
  exact (tell_agrees _ _).bind fun _ _ _ => .pure ⟨hprogram, rfl, hoptimized, rfl⟩

theorem compile_agrees (options : Options) {source source' file file' : String}
    {tokens tokens' : List Token} (h : (Scan.ofSource source file).result = .ok tokens)
    (h' : (Scan.ofSource source' file').result = .ok tokens')
    (hwords : tokens.map Token.word = tokens'.map Token.word) :
    Agrees unseen Compilation.Same (compile options source file)
      (compile options source' file') := by
  rw [compile_unlimited, compile_unlimited]
  dsimp only
  rw [h, h']
  have haccept : Agrees unseen (fun a b => a = tokens ∧ b = tokens')
      (Work.accept (.ok tokens)) (Work.accept (.ok tokens')) := .pure ⟨rfl, rfl⟩
  refine (tellAll_agrees _ _).bind fun _ _ _ => haccept.bind ?_
  rintro _ _ ⟨rfl, rfl⟩
  refine (tell_agrees _ _).bind fun _ _ _ => ?_
  have hparse := Grammar.ofTokens_agrees (Grammar.lexical_of_result h) hwords (Text.lines source)
    (Text.lines source')
  refine (accept_agrees hparse).bind fun program program' hprogram => ?_
  refine (tell_agrees _ _).bind fun _ _ _ => ?_
  -- What stands behind the two options does not depend on their settings.
  by_cases hanalyze : options.analyze = true <;> by_cases hfold : options.fold = true
  all_goals
    simp only [hanalyze, hfold, if_true]
  · refine (typecheck_agrees hprogram _ _).bind fun symbols _ hsymbols => ?_
    subst hsymbols
    refine (tell_agrees _ _).bind fun _ _ _ => ?_
    refine (foldAll_agrees hprogram).bind fun optimized optimized' hoptimized => ?_
    exact (tell_agrees _ _).bind fun _ _ _ => lowering_agrees hprogram hoptimized
  · refine (typecheck_agrees hprogram _ _).bind fun symbols _ hsymbols => ?_
    subst hsymbols
    exact (tell_agrees _ _).bind fun _ _ _ => lowering_agrees hprogram hprogram
  · refine (foldAll_agrees hprogram).bind fun optimized optimized' hoptimized => ?_
    exact (tell_agrees _ _).bind fun _ _ _ => lowering_agrees hprogram hoptimized
  · exact lowering_agrees hprogram hprogram

theorem Work.run_eq_ok_iff {α : Type} {work : Work α} {a : α} :
    work.run.1 = .ok a ↔ ∃ notices, work [] = .ok a notices := by
  unfold run
  cases work [] <;> simp

theorem Work.run_eq_error_iff {α : Type} {work : Work α} {e : Failure} :
    work.run.1 = .error e ↔ ∃ notices, work [] = .error e notices := by
  unfold run
  cases work [] <;> simp

/-- A failure that is the same as a problem, but for places, is a problem with the same cause. -/
theorem Failure.exists_problem {p : Problem} {e : Failure}
    (h : (Failure.problem p).unplaced = e.unplaced) :
    ∃ p', e = .problem p' ∧ p.cause = p'.cause := by
  cases e with
  | problem p' =>
    have hunplaced : p.unplaced = p'.unplaced := Failure.problem.inj h
    exact ⟨p', rfl, (Problem.mk.inj hunplaced).1⟩
  | unsupported phase node => cases h
  | exhausted => cases h

/-- Compilation fails with a problem only. -/
theorem exists_problem_of_compile {options : Options} {source file : String} {e : Failure}
    (h : (compile options source file).run.1 = .error e) : ∃ p, e = .problem p := by
  obtain ⟨notices, hrun⟩ := Work.run_eq_error_iff.1 h
  have horderly := compile_orderly options source file [] fun _ hn => absurd hn List.not_mem_nil
  obtain ⟨⟨p, hp, -⟩, -⟩ := horderly.of_error hrun
  exact ⟨p, hp⟩

/-- **Layout does not matter.** -/
theorem compile_layout (options : Options) {source source' file file' : String}
    {tokens tokens' : List Token} (h : (Scan.ofSource source file).result = .ok tokens)
    (h' : (Scan.ofSource source' file').result = .ok tokens')
    (hwords : tokens.map Token.word = tokens'.map Token.word) :
    (∃ c c', (compile options source file).run.1 = .ok c ∧
      (compile options source' file').run.1 = .ok c' ∧ c.Same c') ∨
    ∃ p p', (compile options source file).run.1 = .error (.problem p) ∧
      (compile options source' file').run.1 = .error (.problem p') ∧ p.cause = p'.cause := by
  have houtcome := compile_agrees options h h' hwords [] [] rfl
  generalize hrun : compile options source file [] = o at houtcome
  generalize hrun' : compile options source' file' [] = o' at houtcome
  cases houtcome with
  | ok hsame =>
    exact .inl ⟨_, _, Work.run_eq_ok_iff.2 ⟨_, hrun⟩, Work.run_eq_ok_iff.2 ⟨_, hrun'⟩, hsame⟩
  | error he =>
    have herror := Work.run_eq_error_iff.2 ⟨_, hrun⟩
    obtain ⟨p, rfl⟩ := exists_problem_of_compile herror
    obtain ⟨p', rfl, hcause⟩ := Failure.exists_problem he
    exact .inr ⟨p, p', herror, Work.run_eq_error_iff.2 ⟨_, hrun'⟩, hcause⟩

/-- A declaration on one line, and in two comments and three lines. -/
theorem halved_layout :
    ∃ c c', (compile {} "int x=7/2;" "a").run.1 = .ok c ∧
      (compile {} "int x // whole\n=7 /* by */ / 2\n;" "b").run.1 = .ok c' ∧ c.Same c' := by
  have h : (Scan.ofSource "int x=7/2;" "a").result =
      .ok (Scan.ofSource "int x=7/2;" "a").tokens := by
    decide +kernel
  have h' : (Scan.ofSource "int x // whole\n=7 /* by */ / 2\n;" "b").result =
      .ok (Scan.ofSource "int x // whole\n=7 /* by */ / 2\n;" "b").tokens := by
    decide +kernel
  have hok : (compile {} "int x=7/2;" "a").run.1.isOk = true := by decide +kernel
  rcases compile_layout {} h h' (by decide +kernel) with hsame | ⟨p, _, herror, -⟩
  · exact hsame
  · rw [herror] at hok
    cases hok

end ThreeAddress
