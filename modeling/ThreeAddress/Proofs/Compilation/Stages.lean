import ThreeAddress.Proofs.Compilation.Concatenation
import ThreeAddress.Proofs.Compilation.Lazy
import ThreeAddress.Proofs.Grammar.Origin
import ThreeAddress.Proofs.Typing.Notices

/-!
# Where a compilation ends

A compilation ends in the first phase that fails, and what that phase makes of the text does not
depend on the phases behind it, nor on the notices in front of it.

* `Failure.OfFolding`: the failures of folding, which are those of no other phase.
* `Failure.OfFoldingIn`: the same for some nodes, with the place of the problem.
* `Reads.exists_stem`: the nodes of a program are there for tokens of its text.
* `Stops`, `Passes`: what a failed compilation has met, and what a finished one has gone through.
* `compile_stages`: every compilation does one of the two.
* `parseSource_error`, `parseSource_orderly`: where a text that is read token by token is refused.
-/

namespace ThreeAddress

/-! ## Folding -/

/-- The failure is one of folding. -/
def Failure.OfFolding : Failure → Prop
  | .problem p => p.cause.category = .folding
  | .unsupported phase _ => phase = .folding
  | .exhausted => False

/-- The failure is one of folding some nodes: one of them is a division by zero, and the problem has
its place, or there is no rule for one of them. -/
def Failure.OfFoldingIn (nodes : List Node) : Failure → Prop
  | .problem p => ∃ left right l a b, .binary left .div right l ∈ nodes ∧
      p = ⟨.divisionByZero a b, l, none⟩
  | .unsupported phase _ => phase = .folding
  | .exhausted => False

namespace Failure.OfFoldingIn

variable {nodes nodes' : List Node} {e : Failure}

theorem mono (h : e.OfFoldingIn nodes) (hsub : nodes ⊆ nodes') : e.OfFoldingIn nodes' := by
  cases e with
  | problem p =>
    obtain ⟨left, right, l, a, b, hmem, hp⟩ := h
    exact ⟨left, right, l, a, b, hsub hmem, hp⟩
  | unsupported => exact h
  | exhausted => exact h

theorem ofFolding (h : e.OfFoldingIn nodes) : e.OfFolding := by
  cases e with
  | problem p =>
    obtain ⟨_, _, _, _, _, -, rfl⟩ := h
    rfl
  | unsupported => exact h
  | exhausted => exact h

end Failure.OfFoldingIn

namespace Folding

variable {op : Operator} {l : Option Location} {notices : List Notice} {nodes : List Node}
  {left right : Node}

theorem ints_fault (h : .binary left op right l ∈ nodes) (a b : Int) (kept : Node) :
    Meets (ints a op b l kept) notices (fun _ _ => True) fun e _ => e.OfFoldingIn nodes := by
  unfold ints
  by_cases hzero : op = .div ∧ b = 0
  · rw [if_pos hzero]
    obtain ⟨rfl, -⟩ := hzero
    exact .throw ⟨left, right, l, a, b, h, rfl⟩
  · rw [if_neg hzero]
    cases intResult? op a b with
    | none => exact .pure trivial
    | some result =>
      cases hresult : Literal.hasText result with
      | true =>
        simp only [hresult, if_true]
        exact .bind (.ok rfl (.pure trivial))
      | false =>
        simp only [hresult, Bool.false_eq_true, if_false]
        exact .bind (.ok rfl (.pure trivial))

theorem floats_fault (x y : Float) (kept : Node) :
    Meets (floats x op y l kept) notices (fun _ _ => True) fun e _ => e.OfFoldingIn nodes := by
  unfold floats
  split
  · exact .pure trivial
  · exact .bind (.ok rfl (.pure trivial))

/-- An operation on folded operands fails at its own place. -/
theorem operation_fault (h : .binary left op right l ∈ nodes) (left' right' : Node) :
    Meets (operation left' op right' l) notices (fun _ _ => True)
      fun e _ => e.OfFoldingIn nodes := by
  unfold operation
  split
  · exact ints_fault h _ _ _
  · exact floats_fault _ _ _
  · split
    · exact floats_fault _ _ _
    · exact .bind (.ok rfl (.pure trivial))
  · split
    · exact floats_fault _ _ _
    · exact .bind (.ok rfl (.pure trivial))
  · exact .pure trivial

/-- Folding a part and going on with it. -/
theorem part_fault {n : Node} {f : Node → Work Node} (hsub : n.parts ⊆ nodes)
    (hn : Meets (fold n) notices (fun _ _ => True) fun e _ => e.OfFoldingIn n.parts)
    (hf : ∀ n' notices', Meets (f n') notices' (fun _ _ => True) fun e _ => e.OfFoldingIn nodes) :
    Meets (fold n >>= f) notices (fun _ _ => True) fun e _ => e.OfFoldingIn nodes :=
  hn.andThen (fun n' notices' _ => hf n' notices') fun _ _ h => h.mono hsub

theorem fold_fault (n : Node) :
    Meets (fold n) notices (fun _ _ => True) fun e _ => e.OfFoldingIn n.parts := by
  induction n generalizing notices with
  | assign | int | float | string | var | ret | block => exact .pure trivial
  | bare => exact .throw rfl
  | binary left op right l ihl ihr =>
    rw [fold]
    have hself : .binary left op right l ∈ (Node.binary left op right l).parts :=
      List.mem_cons_self
    exact part_fault (by grind) ihl fun _ _ => part_fault (by grind) ihr fun _ _ =>
      operation_fault hself _ _
  | ifThen condition thenBranch l ihc iht =>
    rw [fold]
    exact part_fault (by grind) ihc fun _ _ => part_fault (by grind) iht fun _ _ => .pure trivial
  | ifElse condition thenBranch elseBranch l ihc iht ihe =>
    rw [fold]
    exact part_fault (by grind) ihc fun _ _ => part_fault (by grind) iht fun _ _ =>
      part_fault (by grind) ihe fun _ _ => .pure trivial
  | forLoop init condition update body l _ _ _ ihb =>
    rw [fold]
    exact part_fault (by grind) ihb fun _ _ => .pure trivial
  | whileLoop condition body l _ ihb =>
    rw [fold]
    exact part_fault (by grind) ihb fun _ _ => .pure trivial
  | retValue value l ih =>
    rw [fold]
    exact part_fault (by grind) ih fun _ _ => .pure trivial

/-- **Folding fails for reasons of its own**, at the place of a division. -/
theorem foldAll_fault (ss : List Node) :
    Meets (foldAll ss) notices (fun _ _ => True)
      fun e _ => e.OfFoldingIn (Node.partsAll ss) := by
  induction ss generalizing notices with
  | nil => exact .pure trivial
  | cons s ss ih =>
    rw [foldAll]
    refine (fold_fault s).andThen (fun _ _ _ => ?_)
      fun _ _ h => h.mono (List.subset_append_left _ _)
    exact ih.andThen (fun _ _ _ => .pure trivial)
      fun _ _ h => h.mono (List.subset_append_right _ _)

end Folding

/-! ## Stages -/

section Stages

variable {options : Options} {source file : String} {notices : List Notice}

/-- The text is the program. -/
def Reads (source file : String) (program : List Node) : Prop :=
  ∃ tokens, (Scan.ofSource source file).result = .ok tokens ∧
    Grammar.ofTokens tokens (Text.lines source) = .ok program

theorem Reads.unique {program program' : List Node} (h : Reads source file program)
    (h' : Reads source file program') : program = program' := by
  obtain ⟨tokens, hscan, hparse⟩ := h
  obtain ⟨_, hscan', hparse'⟩ := h'
  rw [hscan] at hscan'
  cases hscan'
  rw [hparse] at hparse'
  cases hparse'
  rfl

/-- A program is derived from tokens of its text. -/
theorem Reads.derived {program : List Node} (h : Reads source file program) :
    ∃ ts, (∀ t ∈ ts, t ∈ (Scan.ofSource source file).tokens) ∧
      Grammar.Derives.Program ts program := by
  obtain ⟨tokens, hscan, hparse⟩ := h
  rcases Grammar.ofTokens_outcome (Grammar.lexical_of_result hscan) (Text.lines source) with
    ⟨ss, hok, hss⟩ | ⟨p, herror, -⟩
  · cases hok.symm.trans hparse
    obtain ⟨-, rfl⟩ := Scan.result_eq_ok_iff.1 hscan
    exact ⟨_, fun t ht => (List.takeWhile_sublist _).mem ht, hss⟩
  · cases herror.symm.trans hparse

/-- Each node of a program is there for a token of its text. -/
theorem Reads.exists_stem {program : List Node} (h : Reads source file program) :
    ∀ n ∈ Node.partsAll program,
      ∃ t ∈ (Scan.ofSource source file).tokens, t.Lexical ∧ n.Stems t := by
  obtain ⟨ts, hts, hderives⟩ := h.derived
  intro n hn
  obtain ⟨s, hs, hn⟩ := Node.mem_partsAll.1 hn
  obtain ⟨t, ht, hstems⟩ := hderives.stem s hs n hn
  exact ⟨t, hts t ht, Scan.ofSource_lexical source file t (hts t ht), hstems⟩

/-- What is read has only statements that later phases can treat. -/
theorem Reads.regular {program : List Node} (h : Reads source file program) :
    ∀ s ∈ program, s.Regular := by
  obtain ⟨ts, -, hderives⟩ := h.derived
  exact hderives.regular

theorem Reads.isStatement {program : List Node} (h : Reads source file program) :
    ∀ s ∈ program, s.IsStatement :=
  fun s hs => (h.regular s hs).isStatement

/-- The program is well typed, if types are to be checked. -/
def Checks (options : Options) (source : String) (program : List Node) : Prop :=
  options.analyze = true → ∃ symbols, (typecheck (Text.lines source) program).run.1 = .ok symbols

/-- What ends a compilation: the first phase that fails. -/
inductive Stops (options : Options) (source file : String) : Failure → Prop
  | unread {q : Problem} :
      (Scan.ofSource source file).result = .error q → Stops options source file (.problem q)
  | ungrammatical {tokens : List Token} {p : Problem} :
      (Scan.ofSource source file).result = .ok tokens →
      Grammar.ofTokens tokens (Text.lines source) = .error p →
      Stops options source file (.problem p)
  | untyped {program : List Node} {e : Failure} :
      Reads source file program → options.analyze = true →
      (typecheck (Text.lines source) program).run.1 = .error e → Stops options source file e
  | unfolded {program : List Node} {e : Failure} :
      Reads source file program → Checks options source program → options.fold = true →
      e.OfFoldingIn (Node.partsAll program) → Stops options source file e

/-- What a finished compilation has gone through. -/
structure Passes (options : Options) (source file : String) (c : Compilation) : Prop where
  reads : Reads source file c.program
  checks : Checks options source c.program
  optimizes : Optimizes c.program options.fold c.optimized
  regular : ∀ s ∈ c.optimized, s.Regular
  code : Lowering.generateAll c.optimized = .ok c.code

/-- The last phases, behind the check. -/
theorem optimizing_stages {program : List Node} {tokens : List Token} {symbols : Option Symbols}
    (hreads : Reads source file program) (hchecks : Checks options source program)
    (hnotices : Notice.AllWritten notices) :
    Meets (do
      let optimized ←
        if options.fold then do
          let optimized ← Folding.foldAll program
          Work.tell (.folded file)
          pure optimized
        else pure program
      let code ← Work.take (Lowering.generateAll optimized)
      Work.tell (.lineCount file code.length)
      return { file, finished := true, tokens, program, symbols, optimized, code }) notices
      (fun c _ => Passes options source file c) fun e _ => Stops options source file e := by
  have hlower : ∀ optimized : List Node, (∀ s ∈ optimized, s.Regular) →
      Optimizes program options.fold optimized → ∀ notices,
      Meets (do
        let code ← Work.take (Lowering.generateAll optimized)
        Work.tell (.lineCount file code.length)
        return { file, finished := true, tokens, program, symbols, optimized, code }) notices
        (fun c _ => Passes options source file c) fun e _ => Stops options source file e := by
    intro optimized hregular hoptimizes notices
    obtain ⟨code, hcode, -⟩ := generateAll_of_regular hregular
    rw [hcode]
    exact .bind (.ok rfl (.bind (.ok rfl ⟨hreads, hchecks, hoptimizes, hregular, hcode⟩)))
  by_cases hfold : options.fold = true
  · simp only [hfold, if_true] at hlower ⊢
    cases hrun : Folding.foldAll program notices with
    | ok optimized t =>
      have hregular := ((Folding.foldAll_orderly hreads.regular notices hnotices).of_ok hrun).1
      exact .bind (.ok hrun (.bind (.ok rfl (hlower optimized hregular (.folded hrun) _))))
    | error e t =>
      have he : e.OfFoldingIn (Node.partsAll program) :=
        (Folding.foldAll_fault program).of_error hrun
      exact .bind (.error hrun (.unfolded hreads hchecks hfold he))
  · simp only [Bool.eq_false_iff.2 hfold] at hlower ⊢
    exact hlower program hreads.regular .kept notices

/-- The check and what stands behind it. -/
theorem checking_stages {program : List Node} {tokens : List Token}
    (hreads : Reads source file program) (hanalyze : options.analyze = true)
    (hnotices : Notice.AllWritten notices) :
    Meets (do
      let symbols ← do
        let symbols ← typecheck (Text.lines source) program
        Work.tell (.typed file)
        pure (some symbols)
      let optimized ←
        if options.fold then do
          let optimized ← Folding.foldAll program
          Work.tell (.folded file)
          pure optimized
        else pure program
      let code ← Work.take (Lowering.generateAll optimized)
      Work.tell (.lineCount file code.length)
      return { file, finished := true, tokens, program, symbols, optimized, code }) notices
      (fun c _ => Passes options source file c) fun e _ => Stops options source file e := by
  cases hrun : typecheck (Text.lines source) program notices with
  | ok symbols t =>
    have hchecks : Checks options source program :=
      fun _ => ⟨symbols, (Typing.typecheck_ok_iff _).1 ⟨t, hrun⟩⟩
    have hwritten : Notice.AllWritten t :=
      ((Typing.typecheck_orderly hreads.regular notices hnotices).of_ok hrun).2
    have htyped : Notice.AllWritten (t ++ [.typed file]) :=
      List.forall_mem_append.2 ⟨hwritten, List.forall_mem_singleton.2 trivial⟩
    exact .bind (.ok hrun (.bind (.ok rfl (optimizing_stages hreads hchecks htyped))))
  | error e t =>
    have hstops : Stops options source file e :=
      .untyped hreads hanalyze ((Typing.typecheck_error_iff _).1 ⟨t, hrun⟩)
    exact .bind (.error hrun hstops)

/-- **A compilation ends in the first phase that fails**, or it goes through all of them. -/
theorem compile_stages (hnotices : Notice.AllWritten notices) :
    Meets (compile options source file) notices
      (fun c _ => Passes options source file c) fun e _ => Stops options source file e := by
  have htell : ∀ {ns : List Notice} {n : Notice}, Notice.AllWritten ns → n.Written →
      Notice.AllWritten (ns ++ [n]) := fun hns hn =>
    List.forall_mem_append.2 ⟨hns, List.forall_mem_singleton.2 hn⟩
  have htokens := List.forall_mem_append.2
    ⟨hnotices, Token.notices_written (Scan.ofSource source file).tokens⟩
  rw [compile_unlimited]
  dsimp only
  refine .bind (.ok rfl ?_)
  cases hscan : (Scan.ofSource source file).result with
  | error q => exact .bind (.throw (.unread hscan))
  | ok tokens =>
    refine .bind (.ok rfl (.bind (.ok rfl ?_)))
    cases hparse : Grammar.ofTokens tokens (Text.lines source) with
    | error p => exact .bind (.throw (.ungrammatical hscan hparse))
    | ok program =>
      have hreads : Reads source file program := ⟨tokens, hscan, hparse⟩
      refine .bind (.ok rfl (.bind (.ok rfl ?_)))
      by_cases hanalyze : options.analyze = true
      · simp only [hanalyze, if_true]
        have hwritten := htell (htell htokens (n := .tokenCount file tokens.length) trivial)
          (n := .statementCount file program.length) trivial
        exact checking_stages hreads hanalyze hwritten
      · simp only [hanalyze]
        have hchecks : Checks options source program := fun h => absurd h hanalyze
        exact optimizing_stages hreads hchecks (htell (htell htokens trivial) trivial)

/-! ## Compilations that stop -/

/-- Reading does not look at notices. -/
theorem parseSource_eq (source file : String) (notices : List Notice) :
    parseSource source file notices =
      match (parseSource source file).run.1 with
      | .ok program => .ok program (notices ++ Token.notices (Grammar.ofSource source file).2)
      | .error e => .error e (notices ++ Token.notices (Grammar.ofSource source file).2) := by
  rw [parseSource_unlimited, Work.run]
  generalize Grammar.ofSource source file = read
  obtain ⟨result, taken⟩ := read
  cases result with
  | ok program => rfl
  | error p => rfl

theorem problem_of_parseSource {p : Problem}
    (h : (parseSource source file).run.1 = .error (.problem p)) :
    (Grammar.ofSource source file).1 = .error p := by
  rw [parseSource_run] at h
  cases hread : (Grammar.ofSource source file).1 with
  | error p' =>
    rw [hread] at h
    cases h
    rfl
  | ok ss =>
    rw [hread] at h
    cases h

/-- **A text that is refused while its tokens are read one by one** has a string that is not closed,
or all its tokens can be read and they are refused for the same problem. -/
theorem parseSource_error {p : Problem}
    (h : (parseSource source file).run.1 = .error (.problem p)) :
    (∃ q, (Scan.ofSource source file).result = .error q ∧ q.cause = .unterminatedString ∧
      (p = q ∨ Grammar.Misfit p.cause)) ∨
    ∃ tokens, (Scan.ofSource source file).result = .ok tokens ∧
      Grammar.ofTokens tokens (Text.lines source) = .error p ∧ Grammar.Misfit p.cause := by
  have hproblem := problem_of_parseSource h
  cases hscan : (Scan.ofSource source file).result with
  | error q =>
    have hfault := Scan.fault_of_result hscan
    obtain ⟨p', hp', hcases⟩ := Grammar.ofSupply_of_fault (Text.lines source)
      (Scan.ofSource_lexical source file) (Scan.upTo_ne_endOfInput hfault) (Scan.upTo_fault hfault)
    rw [Grammar.ofSource_eq_ofSupply, Scan.supply, hfault, hp'] at hproblem
    cases hproblem
    exact .inl ⟨q, rfl, Scan.upTo_fault hfault, hcases.imp And.left And.left⟩
  | ok tokens =>
    rw [Grammar.ofSource_eq_ofTokens hscan] at hproblem
    rcases Grammar.ofTokens_outcome (Grammar.lexical_of_result hscan) (Text.lines source) with
      ⟨ss, hok, -⟩ | ⟨p', herror, hp'⟩
    · rw [hok] at hproblem
      cases hproblem
    · rw [herror] at hproblem
      cases hproblem
      exact .inr ⟨tokens, rfl, herror, hp'⟩

theorem parseSource_meets (source file : String) (notices : List Notice) :
    Meets (parseSource source file) notices
      (fun program after => Reads source file program ∧
        after = notices ++ Token.notices (Grammar.ofSource source file).2)
      fun e after => (parseSource source file).run.1 = .error e ∧
        after = notices ++ Token.notices (Grammar.ofSource source file).2 := by
  have heq := parseSource_eq source file notices
  cases hrun : (parseSource source file).run.1 with
  | ok program =>
    rw [hrun] at heq
    exact .ok heq ⟨parseSource_eq_ok_iff.1 hrun, rfl⟩
  | error e =>
    rw [hrun] at heq
    exact .error heq ⟨rfl, rfl⟩

theorem parseSource_orderly (source file : String) :
    Orderly id (parseSource source file) (Reads source file) := by
  intro notices hnotices
  have hwritten := List.forall_mem_append.2
    ⟨hnotices, Token.notices_written (Grammar.ofSource source file).2⟩
  refine (parseSource_meets source file notices).mono
    (fun program after h => ?_) fun e after h => ?_
  · obtain ⟨hreads, rfl⟩ := h
    exact ⟨hreads, hwritten⟩
  · obtain ⟨hrun, rfl⟩ := h
    obtain ⟨p, rfl⟩ : ∃ p, e = .problem p := by
      rw [parseSource_run] at hrun
      cases hread : (Grammar.ofSource source file).1 with
      | ok ss =>
        rw [hread] at hrun
        cases hrun
      | error p =>
        rw [hread] at hrun
        cases hrun
        exact ⟨p, rfl⟩
    have hp : p.cause.InProgram := by
      rcases parseSource_error hrun with ⟨q, -, hq, rfl | hmisfit⟩ | ⟨_, -, -, hmisfit⟩
      · rw [hq]
        exact .unterminatedString
      · exact .of_misfit hmisfit
      · exact .of_misfit hmisfit
    exact ⟨⟨p, rfl, hp⟩, hwritten⟩

end Stages

end ThreeAddress
