import ThreeAddress.Proofs.Stack.Grammar
import ThreeAddress.Proofs.Stack.Phases

/-!
# Compiling on a limited stack

A compilation on a stack settles to the compilation that names none, and the room that it needs is
bounded by the length of the source text.

* `parseSource_settles`, `typecheck_settles`, `compile_settles`: the phases, and all of them.
* `Stack.enough`: a room that is enough for a text.

**Theorem (`compileOn_total`).** With the room that it needs, a compilation comes to an end of its
own, which is a finished compilation or a problem of the program. With less room it is ended by the
stack. There is no other failure.
-/

namespace ThreeAddress

/-- A room that is enough for a text. -/
def Stack.enough (source : String) : Nat := 16 * (source.length + 4)

/-- Walks over trees that are no higher than the text is long, but for one, have enough room. -/
theorem Stack.le_enough {source : String} {height : Nat} (h : height ≤ source.length + 1) :
    3 * height + 2 ≤ Stack.enough source := by
  unfold Stack.enough
  omega

theorem Grammar.Misfit.ne_tooDeep {c : Cause} (h : Grammar.Misfit c) : c ≠ .tooDeep := by
  rintro rfl
  cases h

section Work

variable {bound : Nat} {notices : List Notice}

/-! ## Reading -/

theorem Work.acceptOn_of_ne {α : Type} {p : Problem} (h : p.cause ≠ .tooDeep) (room : Nat) :
    Work.acceptOn (some room) (.error p : Except Problem α) = Work.accept (.error p) := by
  show throw (if p.cause = .tooDeep then _ else _) = _
  rw [if_neg h]
  rfl

theorem Work.acceptOn_of_eq {α : Type} {p : Problem} (h : p.cause = .tooDeep) (room : Nat) :
    Work.acceptOn (some room) (.error p : Except Problem α) = throw .exhausted := by
  show throw (if p.cause = .tooDeep then _ else _) = _
  rw [if_pos h]

/-- What is read in a room is accepted as it is without a limit, once the notices of what was taken
for it are told. -/
theorem accept_settles {x : Nat → Parse (List Node)} {y : Parse (List Node)} {r : Reader}
    (h : Settles (·.cause = .tooDeep) bound x y r)
    (hdeep : ∀ p, (Grammar.run y r).1 = .error p → p.cause ≠ .tooDeep)
    (told : Reader → Work Unit) (htold : ∀ r', ∃ after, told r' notices = .ok () after) :
    Settles Failure.IsExhausted bound
      (fun room => do
        told (Grammar.run (x room) r).2
        Work.acceptOn (some room) (Grammar.run (x room) r).1)
      (do
        told (Grammar.run y r).2
        Work.accept (Grammar.run y r).1) notices := by
  refine h.lift (fun room heq => ?_) fun room p r' hrun hp => ?_
  · have hsame : Grammar.run (x room) r = Grammar.run y r := by rw [Grammar.run, Grammar.run, heq]
    rw [hsame]
    cases hresult : (Grammar.run y r).1 with
    | ok program => rfl
    | error p => rw [Work.acceptOn_of_ne (hdeep p hresult)]
  · obtain ⟨after, hafter⟩ := htold r'
    have hresult : Grammar.run (x room) r = (.error p, r') := by rw [Grammar.run, hrun]
    refine ⟨.exhausted, after, ?_, rfl⟩
    rw [hresult, Work.acceptOn_of_eq hp]
    exact bind_of_ok hafter

theorem Reader.size_le_of_ofSupply {supply : Supply} {lines : List String} {r : Reader}
    (h : Reader.ofSupply supply lines = .ok r) : r.size ≤ supply.upcoming.length + 1 := by
  obtain ⟨upcoming, fault⟩ := supply
  cases upcoming with
  | cons t ts =>
    cases h
    exact Nat.le_succ _
  | nil =>
    cases fault with
    | some p => cases h
    | none =>
      cases h
      exact Nat.le_refl _

theorem Grammar.Session.size_of_start {source file : String} {lines : List String}
    {s : Grammar.Session} (h : Grammar.Session.start source file lines = .ok s) :
    s.reader.size ≤ (Scan.ofSource source file).tokens.length + 1 := by
  unfold Grammar.Session.start at h
  dsimp only at h
  cases hr : Reader.ofSupply (Scan.ofSource source file).supply lines with
  | error p =>
    rw [hr] at h
    cases h
  | ok r =>
    rw [hr] at h
    cases h
    exact Reader.size_le_of_ofSupply hr

/-- A program in a list of tokens. -/
theorem ofTokens_settles {tokens : List Token} (hlexical : ∀ t ∈ tokens, t.Lexical)
    (lines : List String) :
    Settles Failure.IsExhausted (16 * (tokens.length + 2) + 3)
      (fun room => Work.acceptOn (some room)
        (Grammar.ofTokensBy (Grammar.programOn (some room)) tokens lines))
      (Work.accept (Grammar.ofTokens tokens lines)) notices := by
  have hdeep : ∀ p, Grammar.ofTokens tokens lines = .error p → p.cause ≠ .tooDeep := by
    intro p hp
    rcases Grammar.ofTokens_outcome hlexical lines with ⟨ss, hok, -⟩ | ⟨p', herror, hmisfit⟩
    · cases hok.symm.trans hp
    · cases herror.symm.trans hp
      exact hmisfit.ne_tooDeep
  cases hr : Reader.ofSupply ⟨tokens, none⟩ lines with
  | error p => cases tokens <;> cases hr
  | ok r =>
    have hread : ∀ step, Grammar.ofTokensBy step tokens lines = (Grammar.run step r).1 := by
      intro step
      rw [Grammar.ofTokensBy, hr]
      rfl
    unfold Grammar.ofTokens at hdeep ⊢
    simp only [hread] at hdeep ⊢
    have hsize := Reader.size_le_of_ofSupply hr
    have hbound : 16 * (r.size + 1) + 3 ≤ 16 * (tokens.length + 2) + 3 := by
      dsimp only at hsize
      omega
    exact accept_settles ((Grammar.program_settles r).mono hbound) hdeep (fun _ => pure ())
      fun _ => ⟨notices, rfl⟩

/-- A problem of reading is never one of a full stack. -/
theorem ofSource_ne_tooDeep {source file : String} {p : Problem}
    (h : (Grammar.ofSource source file).1 = .error p) : p.cause ≠ .tooDeep := by
  have hrun : (parseSource source file).run.1 = .error (.problem p) := by
    rw [parseSource_run, h]
    rfl
  rcases parseSource_error hrun with ⟨q, -, hq, rfl | hmisfit⟩ | ⟨_, -, -, hmisfit⟩
  · intro hcause
    cases hq.symm.trans hcause
  · exact hmisfit.ne_tooDeep
  · exact hmisfit.ne_tooDeep

/-- A program in a source text, read token by token. -/
theorem parseSource_settles (source file : String) :
    Settles Failure.IsExhausted (Stack.enough source)
      (fun room => parseSourceOn (some room) source file) (parseSource source file) notices := by
  have hdeep : ∀ p, (Grammar.ofSource source file).1 = .error p → p.cause ≠ .tooDeep :=
    fun p => ofSource_ne_tooDeep
  rw [parseSource_unlimited]
  unfold parseSourceOn Grammar.ofSource at *
  cases hstart : Grammar.Session.start source file (Text.lines source) with
  | error p =>
    have hread : ∀ step, Grammar.ofSourceBy step source file = (.error p, []) := by
      intro step
      rw [Grammar.ofSourceBy, hstart]
    simp only [hread] at hdeep ⊢
    simp only [Work.acceptOn_of_ne (hdeep p rfl)]
    exact .const _ _
  | ok s =>
    have hread : ∀ step, Grammar.ofSourceBy step source file = ((Grammar.run step s.reader).1,
        ({ s with reader := (Grammar.run step s.reader).2 } : Grammar.Session).made.map (·.1)) := by
      intro step
      rw [Grammar.ofSourceBy, hstart]
      rfl
    simp only [hread, Grammar.programOn] at hdeep ⊢
    have hbound : 16 * (s.reader.size + 1) + 3 ≤ Stack.enough source := by
      have hsize := Grammar.Session.size_of_start hstart
      have hlength := Scan.length_tokens_le source file
      unfold Stack.enough
      omega
    have hsettles := (Grammar.program_settles s.reader).mono hbound
    have htold : ∀ ts : List Token, ∃ after,
        Work.tellAll (Token.notices ts) notices = .ok () after := fun _ => ⟨_, rfl⟩
    have haccept := accept_settles hsettles hdeep (fun r => Work.tellAll
      (Token.notices (({ s with reader := r } : Grammar.Session).made.map (·.1)))) fun r => htold _
    exact haccept

/-! ## The other phases -/

theorem typecheck_settles (lines : List String) (program : List Node) :
    Settles Failure.IsExhausted (2 * Node.heightAll program + 2)
      (fun room => typecheckOn (some room) lines program) (typecheck lines program) notices := by
  have hcheck : Settles Failure.IsExhausted (2 * Node.heightAll program + 2)
      (fun room => Typing.OnStack.checkAll lines room program) (Typing.checkAll lines program)
      { notices } := Typing.checkAll_settles program { notices }
  refine hcheck.lift (fun room heq => ?_) fun room e s' hrun he => ?_
  · unfold typecheckOn typecheck tabulate Typing.run
    simp only [Typing.checkAllOn]
    rw [heq]
  · refine ⟨.exhausted, s'.notices, ?_, rfl⟩
    unfold typecheckOn tabulate Typing.run
    simp only [Typing.checkAllOn]
    rw [hrun, he]

/-- A walk over whole trees that has room for all its calls, or none of them is made. -/
theorem walk_settles {α : Type} (calls : Nat) (result : Except Failure α) :
    Settles Failure.IsExhausted calls
      (fun room => Work.take (if Stack.fits (some room) calls then result else .error .exhausted))
      (Work.take result) notices := by
  refine ⟨calls, Nat.le_refl _, fun room => ⟨fun hle => ?_, fun hlt => ?_⟩⟩
  · have hfits : Stack.fits (some room) calls = true := decide_eq_true hle
    simp only [hfits, if_true]
  · have hfits : Stack.fits (some room) calls = false := decide_eq_false (Nat.not_le.2 hlt)
    simp only [hfits, if_neg Bool.false_ne_true]
    exact ⟨_, _, rfl, rfl⟩

/-! ## All phases -/

/-- The last phases, behind the check. -/
theorem optimizing_settles {options : Options} {file : String} {tokens : List Token}
    {program : List Node} {symbols : Option Symbols} :
    Settles Failure.IsExhausted (2 * Node.heightAll program)
      (fun room => do
        let optimized ←
          if options.fold then do
            let optimized ← Folding.foldAllOn (some room) program
            Work.tell (.folded file)
            pure optimized
          else pure program
        let code ← Work.take (Lowering.generateAllOn (some room) optimized)
        Work.tell (.lineCount file code.length)
        return ({ file, finished := true, tokens, program, symbols, optimized, code } :
          Compilation))
      (do
        let optimized ←
          if options.fold then do
            let optimized ← Folding.foldAll program
            Work.tell (.folded file)
            pure optimized
          else pure program
        let code ← Work.take (Lowering.generateAll optimized)
        Work.tell (.lineCount file code.length)
        return { file, finished := true, tokens, program, symbols, optimized, code }) notices := by
  have hlower : ∀ (optimized : List Node) (after : List Notice),
      Node.heightAll optimized ≤ Node.heightAll program →
      Settles Failure.IsExhausted (2 * Node.heightAll program)
        (fun room => do
          let code ← Work.take (Lowering.generateAllOn (some room) optimized)
          Work.tell (.lineCount file code.length)
          return ({ file, finished := true, tokens, program, symbols, optimized, code } :
            Compilation))
        (do
          let code ← Work.take (Lowering.generateAll optimized)
          Work.tell (.lineCount file code.length)
          return { file, finished := true, tokens, program, symbols, optimized, code }) after := by
    intro optimized after hheight
    refine .bind ?_ fun code _ _ => .const _ _
    exact (walk_settles (2 * Node.heightAll optimized) _).mono (by omega)
  by_cases hfold : options.fold = true
  all_goals simp only [hfold, if_true]
  · refine (Folding.foldAll_settles program notices).bind fun optimized after h => ?_
    have hheight := (Folding.foldAll_heightAll_le program notices).of_ok h
    exact .bind (.const _ _) fun _ after' _ => hlower optimized after' hheight
  · exact hlower program notices (Nat.le_refl _)

/-- **A compilation settles**, and what it needs is bounded by the length of its text. -/
theorem compile_settles (options : Options) (source file : String) (notices : List Notice) :
    Settles Failure.IsExhausted (Stack.enough source)
      (fun room => compileOn (some room) options source file) (compile options source file)
      notices := by
  rw [compile_unlimited]
  unfold compileOn
  dsimp only
  refine .bind (.const _ _) fun _ s₁ _ => .bind (.const _ _) fun tokens s₂ hscan => ?_
  obtain ⟨hlexical, hlength⟩ : (∀ t ∈ tokens, t.Lexical) ∧ tokens.length ≤ source.length + 1 := by
    cases hresult : (Scan.ofSource source file).result with
    | error p =>
      rw [hresult] at hscan
      cases hscan
    | ok ts =>
      rw [hresult] at hscan
      cases hscan
      obtain ⟨-, rfl⟩ := Scan.result_eq_ok_iff.1 hresult
      exact ⟨Scan.ofSource_lexical source file, Scan.length_tokens_le source file⟩
  refine .bind (.const _ _) fun _ s₃ _ => ?_
  have henough : 16 * (tokens.length + 2) + 3 ≤ Stack.enough source := by
    unfold Stack.enough
    omega
  refine ((ofTokens_settles hlexical _).mono henough).bind fun program s₄ hparse => ?_
  have hheight : Node.heightAll program ≤ tokens.length := by
    cases hresult : Grammar.ofTokens tokens (Text.lines source) with
    | error p =>
      rw [hresult] at hparse
      cases hparse
    | ok ss =>
      rw [hresult] at hparse
      cases hparse
      exact Grammar.heightAll_of_ofTokens hlexical hresult
  have hroom := Stack.le_enough (hheight.trans hlength)
  refine .bind (.const _ _) fun _ s₅ _ => ?_
  by_cases hanalyze : options.analyze = true
  all_goals simp only [hanalyze, if_true]
  · refine ((typecheck_settles _ program).mono (by omega)).bind fun symbols s₆ _ => ?_
    refine .bind (.const _ _) fun _ s₇ _ => ?_
    exact optimizing_settles.mono (by omega)
  · exact optimizing_settles.mono (by omega)

end Work

/-- **Compilation comes to an end of its own, or to that of the stack.** -/
theorem compileOn_total (options : Options) (source file : String) :
    ∃ need ≤ Stack.enough source, ∀ room,
      (need ≤ room →
        compileOn (some room) options source file [] = compile options source file [] ∧
        ((∃ c notices, compileOn (some room) options source file [] = .ok c notices ∧
            c.finished = true ∧ c.WellFormed ∧ Notice.AllWritten notices) ∨
          ∃ p notices, compileOn (some room) options source file [] =
            .error (.problem p) notices ∧
              p.cause.InProgram ∧ p.cause.category ≠ .general ∧ Notice.AllWritten notices)) ∧
      (room < need →
        ∃ notices, compileOn (some room) options source file [] = .error .exhausted notices) := by
  obtain ⟨need, hneed, hroom⟩ := compile_settles options source file []
  refine ⟨need, hneed, fun room => ⟨fun hle => ?_, fun hlt => ?_⟩⟩
  · have hsame : compileOn (some room) options source file [] = compile options source file [] :=
      (hroom room).1 hle
    rw [hsame]
    exact ⟨rfl, compile_total options source file⟩
  · obtain ⟨_, notices, hrun, rfl⟩ := (hroom room).2 hlt
    exact ⟨notices, hrun⟩

end ThreeAddress
