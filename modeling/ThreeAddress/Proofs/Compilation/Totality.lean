import ThreeAddress.Proofs.Compilation.Phases
import ThreeAddress.Proofs.Grammar.Exactness
import ThreeAddress.Proofs.Grammar.Regularity

/-!
# Compilation is total

Every source text has a compilation or a problem of its own. No phase meets a node that it has no
rule for, and no integer is to be written that has no text: not in the code, not in a tree, not in a
report or a notice.

* `Compilation.WellFormed`: the invariant of the trees, and what follows from it.

**Theorem (`compile_total`).** Under all options a source text is either compiled, and the
compilation is well formed, or it is refused for a cause that lies in it.

The invariant holds of what the grammar derives, and folding keeps it, so that each phase is given
regular trees (`compile_orderly`). The stack has no limit here.
-/

namespace ThreeAddress

/-! ## Problems of the text and of the grammar -/

theorem Cause.InProgram.of_misfit {c : Cause} (h : Grammar.Misfit c) : c.InProgram := by
  cases h with
  | unexpectedToken => exact .unexpectedToken
  | missingExpression => exact .missingExpression
  | unreadableInteger => exact .unreadableInteger

/-- A cause that lies in a program has a category of its own. -/
theorem Cause.InProgram.category_ne {c : Cause} (h : c.InProgram) : c.category ≠ .general := by
  cases h <;> exact nofun

theorem Cursor.next_error {c after : Cursor} {p : Problem} (h : c.next = (.error p, after)) :
    p.cause = .unterminatedString := by
  unfold next at h
  dsimp only at h
  split at h
  · split at h
    · cases h
    · split at h
      · cases h
      · cases h
        rfl
  · cases h

/-- Only a string without an end ends the reading of tokens. -/
theorem Scan.upTo_fault {n : Nat} {c : Cursor} {p : Problem} (h : (upTo n c).fault = some p) :
    p.cause = .unterminatedString := by
  induction n generalizing c with
  | zero => cases h
  | succ n ih =>
    rw [upTo] at h
    split at h
    · next hnext =>
      cases h
      exact Cursor.next_error hnext
    · split at h
      · cases h
      · exact ih h

/-! ## Orderly compilation -/

/-- The result is good, or its problem lies in the program. -/
theorem Orderly.accept {α : Type} {r : Except Problem α} {good : α → Prop}
    (hok : ∀ a, r = .ok a → good a) (herror : ∀ p, r = .error p → p.cause.InProgram) :
    Orderly id (Work.accept r) good := by
  cases r with
  | ok a => exact .pure (hok a rfl)
  | error p => exact .throw ⟨p, rfl, herror p rfl⟩

theorem Orderly.tellAll {ns : List Notice} (h : Notice.AllWritten ns) :
    Orderly id (Work.tellAll ns) fun _ => True :=
  fun _ hs => .ok rfl ⟨trivial, List.forall_mem_append.2 ⟨hs, h⟩⟩

/-- Tokens give rise to notices without integers. -/
theorem Token.notices_written (tokens : List Token) : Notice.AllWritten (Token.notices tokens) := by
  intro n hn
  obtain ⟨t, -, ht⟩ := List.mem_filterMap.1 hn
  unfold Token.notice? at ht
  split at ht
  · cases ht
    trivial
  · cases ht

theorem scan_orderly (source file : String) :
    Orderly id (Work.accept (Scan.ofSource source file).result) fun tokens =>
      ∀ t ∈ tokens, t.Lexical := by
  refine .accept (fun tokens h => Grammar.lexical_of_result h) fun p h => ?_
  unfold Scan.result at h
  split at h
  · cases h
  · next hfault =>
    cases h
    rw [Scan.upTo_fault hfault]
    exact .unterminatedString

theorem grammar_orderly {tokens : List Token} (h : ∀ t ∈ tokens, t.Lexical) (lines : List String) :
    Orderly id (Work.accept (Grammar.ofTokens tokens lines)) fun program =>
      ∀ s ∈ program, s.Regular := by
  rcases Grammar.ofTokens_outcome h lines with ⟨ss, hok, hss⟩ | ⟨p, herror, hp⟩
  · rw [hok]
    exact .pure hss.regular
  · rw [herror]
    exact .throw ⟨p, rfl, .of_misfit hp⟩

/-- The trees of a compilation are regular and can be printed, and its code is that of its last
trees and can be written. -/
structure Compilation.WellFormed (c : Compilation) : Prop where
  program : ∀ s ∈ c.program, s.Regular
  optimized : ∀ s ∈ c.optimized, s.Regular
  outline_program : ∃ text, Node.outlineProgram c.program = .ok text
  outline_optimized : ∃ text, Node.outlineProgram c.optimized = .ok text
  code : Lowering.generateAll c.optimized = .ok c.code
  written : ∀ i ∈ c.code, i.Written

/-- The code of regular trees is the last thing that a compilation needs. -/
theorem lowering_orderly {file : String} {tokens : List Token} {program optimized : List Node}
    {symbols : Option Symbols} (hprogram : ∀ s ∈ program, s.Regular)
    (hoptimized : ∀ s ∈ optimized, s.Regular) :
    Orderly id (do
      let code ← Work.take (Lowering.generateAll optimized)
      Work.tell (.lineCount file code.length)
      return { file, finished := true, tokens, program, symbols, optimized, code })
      fun c : Compilation => c.finished = true ∧ c.WellFormed := by
  obtain ⟨code, hcode, hwritten⟩ := generateAll_of_regular hoptimized
  have htake : Orderly id (Work.take (Lowering.generateAll optimized)) fun a => a = code := by
    rw [hcode]
    exact .pure rfl
  refine htake.bind fun _ h => ?_
  subst h
  refine .tell_bind trivial (.pure ⟨rfl, ?_⟩)
  exact ⟨hprogram, hoptimized, Node.outlineProgram_of_regular hprogram,
    Node.outlineProgram_of_regular hoptimized, hcode, hwritten⟩

theorem compile_orderly (options : Options) (source file : String) :
    Orderly id (compile options source file) fun c => c.finished = true ∧ c.WellFormed := by
  rw [compile_unlimited]
  refine (Orderly.tellAll (Token.notices_written _)).bind fun _ _ => ?_
  refine (scan_orderly source file).bind fun tokens htokens => ?_
  refine .tell_bind trivial ?_
  refine (grammar_orderly htokens _).bind fun program hprogram => ?_
  refine .tell_bind trivial ?_
  -- What stands behind the two options does not depend on their settings.
  by_cases hanalyze : options.analyze = true <;> by_cases hfold : options.fold = true
  all_goals
    simp only [hanalyze, hfold, if_true]
  · refine (Typing.typecheck_orderly hprogram).bind fun symbols _ => .tell_bind trivial ?_
    refine (Folding.foldAll_orderly hprogram).bind fun optimized h => .tell_bind trivial ?_
    exact lowering_orderly hprogram h
  · refine (Typing.typecheck_orderly hprogram).bind fun symbols _ => .tell_bind trivial ?_
    exact lowering_orderly hprogram hprogram
  · refine (Folding.foldAll_orderly hprogram).bind fun optimized h => .tell_bind trivial ?_
    exact lowering_orderly hprogram h
  · exact lowering_orderly hprogram hprogram

/-- **Compilation is total.** -/
theorem compile_total (options : Options) (source file : String) :
    (∃ c notices, compile options source file [] = .ok c notices ∧ c.finished = true ∧
      c.WellFormed ∧ Notice.AllWritten notices) ∨
    ∃ p notices, compile options source file [] = .error (.problem p) notices ∧
      p.cause.InProgram ∧ p.cause.category ≠ .general ∧ Notice.AllWritten notices := by
  have horderly := compile_orderly options source file [] fun _ hn => absurd hn List.not_mem_nil
  unfold Meets at horderly
  cases h : compile options source file [] with
  | ok c notices =>
    rw [h] at horderly
    obtain ⟨⟨hfinished, hc⟩, hnotices⟩ := horderly
    exact .inl ⟨c, notices, rfl, hfinished, hc, hnotices⟩
  | error e notices =>
    rw [h] at horderly
    obtain ⟨⟨p, rfl, hp⟩, hnotices⟩ := horderly
    exact .inr ⟨p, notices, rfl, hp, hp.category_ne, hnotices⟩

end ThreeAddress
