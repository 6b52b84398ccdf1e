import ThreeAddress.Proofs.Compilation.Layout
import ThreeAddress.Proofs.Compilation.Lazy

/-!
# Programs one after the other

Two source texts with a newline between them are one program after the other: the lexer is where it
was at the start when it comes to the second text, the parser does not look beyond the end of a
statement, and each statement is folded and lowered on its own. Only the table of variables goes
from one program to the next.

* `Scan.result_seam`: the words of both texts. A program does not end in a comment that is not
  closed, so the newline ends whatever it ends in.
* `ofTokens_seam`: the statements of both.
* `foldAll_append`, `generateAll_append`, `checkAll_append`: the phases on one program after the
  other.
* `Typing.Accepts`: the check as a relation between tables of variables.

**Theorem (`compile_concatenation`).** The code of two texts with a newline between them is that of
the one and then that of the other, and they are well typed iff the first one is and the second one
is under the table that the first one leaves.
-/

namespace ThreeAddress

/-! ## Words -/

namespace Grammar

open Derives

theorem Derives.Program.append {ts us : List Token} {ss ss' : List Node} (h : Program ts ss)
    (h' : Program us ss') : Program (ts ++ us) (ss ++ ss') := by
  induction ss generalizing ts with
  | nil =>
    cases h
    exact h'
  | cons s ss ih =>
    cases h with
    | cons hs hss =>
      rw [List.append_assoc]
      exact .cons hs (ih hss)

theorem map_word_beforeEnd {tokens : List Token} {front : List (Kind × String)}
    (h : tokens.map Token.word = front ++ [endWord]) (hfront : ∀ w ∈ front, w.1 ≠ .endOfInput) :
    (beforeEnd tokens).map Token.word = front := by
  show (tokens.takeWhile ((fun w : Kind × String => w.1 ≠ .endOfInput) ∘ Token.word)).map
    Token.word = front
  rw [← List.takeWhile_map, h,
    List.takeWhile_append_of_pos fun w hw => decide_eq_true (hfront w hw)]
  exact List.append_nil front

/-- The end of input is read behind the tokens of the program, and nothing else is. -/
theorem map_word_of_result {source file : String} {tokens : List Token}
    (h : (Scan.ofSource source file).result = .ok tokens) :
    tokens.map Token.word = (beforeEnd tokens).map Token.word ++ [endWord] := by
  obtain ⟨front, hwords, hfront⟩ := Scan.exists_front h
  rw [map_word_beforeEnd hwords hfront, hwords]

/-- Two lists of tokens, the first of which is a program. -/
theorem beforeEnd_append {ts tokens : List Token} {ss : List Node} (h : Program ts ss) :
    beforeEnd (ts ++ tokens) = ts ++ beforeEnd tokens :=
  List.takeWhile_append_of_pos fun _ ht => decide_eq_true (h.grammatical.ne_endOfInput ht)

/-- **A newline behind a program** keeps its words. -/
theorem Scan.result_seam {source source' file file' : String} {tokens tokens' : List Token}
    {ss : List Node} (h : (Scan.ofSource source file).result = .ok tokens)
    (h' : (Scan.ofSource source' file').result = .ok tokens')
    (hss : Program (beforeEnd tokens) ss) (whole : String) :
    ∃ both, (Scan.ofSource (source ++ "\n" ++ source') whole).result = .ok both ∧
      both.map Token.word = (beforeEnd tokens ++ tokens').map Token.word := by
  have hwords := map_word_of_result h
  rcases Scan.words_seam h h' with ⟨front, hopen⟩ | ⟨front, hfront, hboth⟩
  · -- The unknown token of an open comment is in no rule of the grammar.
    rw [List.append_cons, hwords, List.append_cancel_right_eq] at hopen
    have hmem : (Kind.unknown, Token.unclosedComment) ∈ (beforeEnd tokens).map Token.word := by
      rw [hopen]
      exact List.mem_append_right _ List.mem_cons_self
    obtain ⟨t, ht, hword⟩ := List.mem_map.1 hmem
    have hkind := hss.grammatical t ht
    rw [show t.kind = .unknown from congrArg Prod.fst hword] at hkind
    cases hkind
  · obtain ⟨both, hresult, hboth⟩ := hboth whole
    rw [hwords, List.append_cancel_right_eq] at hfront
    exact ⟨both, hresult, by rw [hboth, List.map_append, hfront]⟩

/-- What has been read is derived. -/
theorem program_of_ofTokens {tokens : List Token} {lines : List String} {ss : List Node}
    (hlexical : ∀ t ∈ tokens, t.Lexical) (h : ofTokens tokens lines = .ok ss) :
    Program (beforeEnd tokens) ss := by
  rcases ofTokens_outcome hlexical lines with ⟨ss', hok, hss⟩ | ⟨p, herror, -⟩
  · rw [h] at hok
    cases hok
    exact hss
  · rw [h] at herror
    cases herror

/-- **Two programs with a newline between them** are one program. -/
theorem ofTokens_seam {source source' file file' : String} {tokens tokens' : List Token}
    {lines lines' : List String} {ss ss' : List Node}
    (h : (Scan.ofSource source file).result = .ok tokens)
    (h' : (Scan.ofSource source' file').result = .ok tokens')
    (hss : ofTokens tokens lines = .ok ss) (hss' : ofTokens tokens' lines' = .ok ss')
    (whole : String) (lines'' : List String) :
    ∃ both program, (Scan.ofSource (source ++ "\n" ++ source') whole).result = .ok both ∧
      ofTokens both lines'' = .ok program ∧
      (ss ++ ss').map Node.unplaced = program.map Node.unplaced := by
  have hlexical := lexical_of_result h
  have hlexical' := lexical_of_result h'
  have hprogram := program_of_ofTokens hlexical hss
  obtain ⟨both, hboth, hwords⟩ := Scan.result_seam h h' hprogram whole
  have hread : ofTokens (beforeEnd tokens ++ tokens') lines'' = .ok (ss ++ ss') := by
    refine ofTokens_of_derives ?_ lines''
    rw [beforeEnd_append hprogram]
    exact hprogram.append (program_of_ofTokens hlexical' hss')
  have hlexical_both : ∀ t ∈ beforeEnd tokens ++ tokens', t.Lexical :=
    List.forall_mem_append.2
      ⟨fun t ht => hlexical t ((List.takeWhile_sublist _).mem ht), hlexical'⟩
  rcases ofTokens_agrees hlexical_both hwords.symm lines'' lines'' with
    ⟨_, program, hok, hok', hsame⟩ | ⟨p, _, herror, -⟩
  · rw [hread] at hok
    cases hok
    exact ⟨both, program, hboth, hok', hsame⟩
  · rw [hread] at herror
    cases herror

end Grammar

/-! ## Phases -/

theorem Lowering.generateAll_append {ss ss' : List Node} {code code' : List Instruction}
    (h : generateAll ss = .ok code) (h' : generateAll ss' = .ok code') :
    generateAll (ss ++ ss') = .ok (code ++ code') := by
  induction ss generalizing code with
  | nil =>
    cases h
    exact h'
  | cons s ss ih =>
    rw [generateAll] at h
    rw [List.cons_append, generateAll]
    cases hfirst : generate s with
    | error e =>
      rw [hfirst] at h
      cases h
    | ok first =>
      cases hmore : generateAll ss with
      | error e =>
        rw [hfirst, hmore] at h
        cases h
      | ok more =>
        rw [hfirst, hmore] at h
        cases h
        rw [ih hmore, List.append_assoc]
        rfl

theorem Folding.foldAll_append (ss ss' : List Node) :
    foldAll (ss ++ ss') = (do
      let first ← foldAll ss
      let more ← foldAll ss'
      return first ++ more) := by
  induction ss with
  | nil =>
    rw [List.nil_append, foldAll]
    simp
  | cons s ss ih =>
    rw [List.cons_append, foldAll, foldAll, ih]
    simp

theorem Typing.checkAll_append (lines : List String) (ss ss' : List Node) :
    checkAll lines (ss ++ ss') = (do
      checkAll lines ss
      checkAll lines ss') := by
  induction ss with
  | nil =>
    rw [List.nil_append, checkAll]
    simp
  | cons s ss ih =>
    rw [List.cons_append, checkAll, checkAll, ih, bind_assoc]

/-! ## Checking -/

namespace Typing

/-- The check takes the program under the first table and leaves the second one. -/
def Accepts (lines : List String) (before : Symbols) (program : List Node) (after : Symbols) :
    Prop :=
  ∃ state, checkAll lines program { symbols := before } = .ok () state ∧ state.symbols = after

/-- The check starts with any notices, and the program may be placed elsewhere. -/
theorem Accepts.of_checkAll {lines lines' : List String} {program program' : List Node}
    (h : program.map Node.unplaced = program'.map Node.unplaced) {state final : State}
    (hrun : checkAll lines program state = .ok () final) :
    Accepts lines' state.symbols program' final.symbols := by
  have hstart : state.symbols = ({ symbols := state.symbols } : State).symbols := rfl
  obtain ⟨_, final', hfinal, -, hsymbols⟩ := (checkAll_agrees h lines lines').of_ok hstart hrun
  exact ⟨final', hfinal, hsymbols.symm⟩

theorem accepts_congr {lines lines' : List String} {program program' : List Node}
    (h : program.map Node.unplaced = program'.map Node.unplaced) {before after : Symbols} :
    Accepts lines before program after ↔ Accepts lines' before program' after := by
  constructor
  · rintro ⟨state, hrun, rfl⟩
    exact .of_checkAll h hrun
  · rintro ⟨state, hrun, rfl⟩
    exact .of_checkAll h.symm hrun

/-- **One program after the other** is accepted iff the second one is under the table that the first
one leaves. -/
theorem accepts_append {lines : List String} {ss ss' : List Node} {before after : Symbols} :
    Accepts lines before (ss ++ ss') after ↔
      ∃ between, Accepts lines before ss between ∧ Accepts lines between ss' after := by
  constructor
  · rintro ⟨state, hrun, rfl⟩
    rw [checkAll_append, bind_eq_ok_iff] at hrun
    obtain ⟨_, middle, hfirst, hsecond⟩ := hrun
    exact ⟨middle.symbols, .of_checkAll rfl hfirst, .of_checkAll rfl hsecond⟩
  · rintro ⟨_, ⟨middle, hfirst, rfl⟩, ⟨state, hsecond, rfl⟩⟩
    have hstart : ({ symbols := middle.symbols } : State).symbols = middle.symbols := rfl
    obtain ⟨_, final, hfinal, -, hsymbols⟩ :=
      (checkAll_agrees rfl lines lines).of_ok hstart hsecond
    refine ⟨final, ?_, hsymbols.symm⟩
    rw [checkAll_append]
    exact bind_eq_ok_iff.2 ⟨_, middle, hfirst, hfinal⟩

end Typing

/-- The check of a whole program starts with the empty table. -/
theorem typecheck_eq_ok_iff {lines : List String} {program : List Node} {after : Symbols} :
    (typecheck lines program).run.1 = .ok after ↔ Typing.Accepts lines {} program after := by
  rw [Work.run_eq_ok_iff]
  unfold typecheck tabulate Typing.run Typing.Accepts
  cases Typing.checkAll lines program {} with
  | ok _ state => simp
  | error e state => simp

/-! ## Code -/

theorem Work.accept_eq_ok_iff {α : Type} {r : Except Problem α} {a : α} {s t : List Notice} :
    accept r s = .ok a t ↔ r = .ok a ∧ s = t := by
  cases r with
  | ok b =>
    show EStateM.Result.ok b s = .ok a t ↔ _
    simp
  | error p =>
    show EStateM.Result.error (Failure.problem p) s = .ok a t ↔ _
    simp

theorem Work.take_eq_ok_iff {α : Type} {r : Except Failure α} {a : α} {s t : List Notice} :
    take r s = .ok a t ↔ r = .ok a ∧ s = t := by
  cases r with
  | ok b =>
    show EStateM.Result.ok b s = .ok a t ↔ _
    simp
  | error e =>
    show EStateM.Result.error e s = .ok a t ↔ _
    simp

/-- What the trees of a program become, with folding and without it. -/
inductive Optimizes (program : List Node) : Bool → List Node → Prop
  | kept : Optimizes program false program
  | folded {optimized : List Node} {notices notices' : List Notice} :
      Folding.foldAll program notices = .ok optimized notices' → Optimizes program true optimized

/-- Folding succeeds behind other notices, too. -/
theorem Folding.foldAll_again {program optimized : List Node} {notices notices' : List Notice}
    (h : foldAll program notices = .ok optimized notices') (t : List Notice) :
    Meets (foldAll program) t
      (fun optimized' _ => optimized.map Node.unplaced = optimized'.map Node.unplaced)
      fun _ _ => False := by
  have hview : unseen notices = unseen t := rfl
  obtain ⟨optimized', t', hrun, hsame, -⟩ := (foldAll_agrees rfl).of_ok hview h
  exact .ok hrun hsame

/-- A compilation without a check is made of its parts. -/
theorem parts_of_compile {fold : Bool} {source file : String} {c : Compilation}
    (h : (compile { analyze := false, fold } source file).run.1 = .ok c) :
    ∃ tokens, (Scan.ofSource source file).result = .ok tokens ∧
      Grammar.ofTokens tokens (Text.lines source) = .ok c.program ∧
      Optimizes c.program fold c.optimized ∧ Lowering.generateAll c.optimized = .ok c.code := by
  obtain ⟨_, hrun⟩ := Work.run_eq_ok_iff.1 h
  rw [compile_unlimited] at hrun
  obtain ⟨_, _, -, hrun⟩ := bind_eq_ok_iff.1 hrun
  obtain ⟨tokens, _, htokens, hrun⟩ := bind_eq_ok_iff.1 hrun
  obtain ⟨_, _, -, hrun⟩ := bind_eq_ok_iff.1 hrun
  obtain ⟨program, _, hprogram, hrun⟩ := bind_eq_ok_iff.1 hrun
  obtain ⟨_, _, -, hrun⟩ := bind_eq_ok_iff.1 hrun
  have htokens := (Work.accept_eq_ok_iff.1 htokens).1
  have hprogram := (Work.accept_eq_ok_iff.1 hprogram).1
  cases fold with
  | false =>
    simp only [Bool.false_eq_true, if_false, pure_bind] at hrun
    obtain ⟨code, _, hcode, hrun⟩ := bind_eq_ok_iff.1 hrun
    obtain ⟨_, _, -, hrun⟩ := bind_eq_ok_iff.1 hrun
    cases hrun
    exact ⟨tokens, htokens, hprogram, .kept, (Work.take_eq_ok_iff.1 hcode).1⟩
  | true =>
    simp only [Bool.false_eq_true, if_false, if_true, pure_bind] at hrun
    obtain ⟨optimized, _, hoptimized, hrun⟩ := bind_eq_ok_iff.1 hrun
    obtain ⟨_, _, -, hrun⟩ := bind_eq_ok_iff.1 hrun
    obtain ⟨code, _, hcode, hrun⟩ := bind_eq_ok_iff.1 hrun
    obtain ⟨_, _, -, hrun⟩ := bind_eq_ok_iff.1 hrun
    cases hrun
    exact ⟨tokens, htokens, hprogram, .folded hoptimized, (Work.take_eq_ok_iff.1 hcode).1⟩

/-- The parts make a compilation. Folding comes behind other notices here, so its trees are the same
but for places. -/
theorem compile_of_parts {fold : Bool} {source file : String} {tokens : List Token}
    {program optimized : List Node} {code : List Instruction}
    (htokens : (Scan.ofSource source file).result = .ok tokens)
    (hprogram : Grammar.ofTokens tokens (Text.lines source) = .ok program)
    (hoptimized : Optimizes program fold optimized)
    (hcode : Lowering.generateAll optimized = .ok code) :
    ∃ c, (compile { analyze := false, fold } source file).run.1 = .ok c ∧ c.program = program ∧
      c.optimized.map Node.unplaced = optimized.map Node.unplaced ∧ c.code = code := by
  have hmeets : Meets (compile { analyze := false, fold } source file) []
      (fun c _ => c.program = program ∧
        c.optimized.map Node.unplaced = optimized.map Node.unplaced ∧ c.code = code)
      fun _ _ => False := by
    rw [compile_unlimited]
    dsimp only
    rw [htokens]
    refine .bind (.ok rfl (.bind (.ok rfl (.bind (.ok rfl ?_)))))
    rw [hprogram]
    refine .bind (.ok rfl (.bind (.ok rfl ?_)))
    cases hoptimized with
    | kept =>
      simp only [Bool.false_eq_true, if_false, pure_bind]
      rw [hcode]
      exact .bind (.ok rfl (.bind (.ok rfl ⟨rfl, rfl, rfl⟩)))
    | folded hfold =>
      simp only [Bool.false_eq_true, if_false, if_true, pure_bind]
      refine (Folding.foldAll_again hfold _).andThen ?_ fun _ _ h => h
      intro optimized' _ hsame
      refine .bind (.ok rfl ?_)
      rw [← generateAll_congr hsame, hcode]
      exact .bind (.ok rfl (.bind (.ok rfl ⟨rfl, hsame.symm, rfl⟩)))
  obtain ⟨c, notices, hrun, hc⟩ := hmeets.exists_ok
  exact ⟨c, Work.run_eq_ok_iff.2 ⟨notices, hrun⟩, hc⟩

/-- Two programs one after the other, placed elsewhere, become what each of them becomes. -/
theorem Optimizes.append {fold : Bool} {ss ss' optimized optimized' program : List Node}
    (h : Optimizes ss fold optimized) (h' : Optimizes ss' fold optimized')
    (hprogram : (ss ++ ss').map Node.unplaced = program.map Node.unplaced) :
    ∃ both, Optimizes program fold both ∧
      (optimized ++ optimized').map Node.unplaced = both.map Node.unplaced := by
  cases h with
  | kept =>
    cases h'
    exact ⟨program, .kept, hprogram⟩
  | @folded optimized notices middle hfold =>
    cases h' with
    | folded hfold' =>
      obtain ⟨second, final, hsecond, hsame⟩ := (Folding.foldAll_again hfold' middle).exists_ok
      have hboth : Folding.foldAll (ss ++ ss') notices = .ok (optimized ++ second) final := by
        rw [Folding.foldAll_append]
        exact bind_eq_ok_iff.2 ⟨_, _, hfold, bind_eq_ok_iff.2 ⟨_, _, hsecond, rfl⟩⟩
      have hview : unseen notices = unseen notices := rfl
      obtain ⟨both, _, hrun, hunplaced, -⟩ := (foldAll_agrees hprogram).of_ok hview hboth
      refine ⟨both, .folded hrun, ?_⟩
      rw [← hunplaced, List.map_append, List.map_append, hsame]

/-- **Compilation is compositional.** -/
theorem compile_concatenation (source source' file file' whole : String) :
    (∀ fold c c', (compile { analyze := false, fold } source file).run.1 = .ok c →
      (compile { analyze := false, fold } source' file').run.1 = .ok c' →
      ∃ d, (compile { analyze := false, fold } (source ++ "\n" ++ source') whole).run.1 = .ok d ∧
        d.program.map Node.unplaced = (c.program ++ c'.program).map Node.unplaced ∧
        d.optimized.map Node.unplaced = (c.optimized ++ c'.optimized).map Node.unplaced ∧
        d.code = c.code ++ c'.code) ∧
    ∀ ss ss', (parseSource source file).run.1 = .ok ss →
      (parseSource source' file').run.1 = .ok ss' →
      ∃ program, (parseSource (source ++ "\n" ++ source') whole).run.1 = .ok program ∧
        program.map Node.unplaced = (ss ++ ss').map Node.unplaced ∧
        ∀ after,
          (typecheck (Text.lines (source ++ "\n" ++ source')) program).run.1 = .ok after ↔
          ∃ between, (typecheck (Text.lines source) ss).run.1 = .ok between ∧
            Typing.Accepts (Text.lines source') between ss' after := by
  constructor
  · intro fold c c' hc hc'
    obtain ⟨tokens, htokens, hprogram, hoptimized, hcode⟩ := parts_of_compile hc
    obtain ⟨tokens', htokens', hprogram', hoptimized', hcode'⟩ := parts_of_compile hc'
    obtain ⟨both, program, hboth, hread, hsame⟩ := Grammar.ofTokens_seam htokens htokens' hprogram
      hprogram' whole (Text.lines (source ++ "\n" ++ source'))
    obtain ⟨optimized, hbecomes, hunplaced⟩ := hoptimized.append hoptimized' hsame
    have hgenerate := Lowering.generateAll_append hcode hcode'
    rw [generateAll_congr hunplaced] at hgenerate
    obtain ⟨d, hd, rfl, hd_optimized, hd_code⟩ :=
      compile_of_parts hboth hread hbecomes hgenerate
    exact ⟨d, hd, hsame.symm, hd_optimized.trans hunplaced.symm, hd_code⟩
  · intro ss ss' hss hss'
    obtain ⟨tokens, htokens, hprogram⟩ := parseSource_eq_ok_iff.1 hss
    obtain ⟨tokens', htokens', hprogram'⟩ := parseSource_eq_ok_iff.1 hss'
    obtain ⟨both, program, hboth, hread, hsame⟩ := Grammar.ofTokens_seam htokens htokens' hprogram
      hprogram' whole (Text.lines (source ++ "\n" ++ source'))
    refine ⟨program, parseSource_eq_ok_iff.2 ⟨both, hboth, hread⟩, hsame.symm, fun after => ?_⟩
    have hplaces : Typing.Accepts (Text.lines (source ++ "\n" ++ source')) {} program after ↔
        Typing.Accepts (Text.lines source) {} (ss ++ ss') after := Typing.accepts_congr hsame.symm
    rw [typecheck_eq_ok_iff, hplaces, Typing.accepts_append]
    refine exists_congr fun between => and_congr typecheck_eq_ok_iff.symm ?_
    exact Typing.accepts_congr rfl

theorem exists_of_isOk {ε α : Type} {r : Except ε α} (h : r.isOk = true) : ∃ a, r = .ok a := by
  cases r with
  | ok a => exact ⟨a, rfl⟩
  | error e => cases h

/-- A declaration, and a program that is well typed behind it only. -/
theorem counter_concatenation :
    (∃ c c' d, (compile { analyze := false } "int x=1;" "a").run.1 = .ok c ∧
      (compile { analyze := false } "x=x+2;" "b").run.1 = .ok c' ∧
      (compile { analyze := false } ("int x=1;" ++ "\n" ++ "x=x+2;") "c").run.1 = .ok d ∧
      d.code = c.code ++ c'.code) ∧
    ∃ ss ss' program, (parseSource "int x=1;" "a").run.1 = .ok ss ∧
      (parseSource "x=x+2;" "b").run.1 = .ok ss' ∧
      (parseSource ("int x=1;" ++ "\n" ++ "x=x+2;") "c").run.1 = .ok program ∧
      ∀ after,
        (typecheck (Text.lines ("int x=1;" ++ "\n" ++ "x=x+2;")) program).run.1 = .ok after ↔
        ∃ between, (typecheck (Text.lines "int x=1;") ss).run.1 = .ok between ∧
          Typing.Accepts (Text.lines "x=x+2;") between ss' after := by
  obtain ⟨hcompile, hparse⟩ := compile_concatenation "int x=1;" "x=x+2;" "a" "b" "c"
  constructor
  · obtain ⟨c, hc⟩ := exists_of_isOk (r := (compile { analyze := false } "int x=1;" "a").run.1)
      (by decide +kernel)
    obtain ⟨c', hc'⟩ := exists_of_isOk (r := (compile { analyze := false } "x=x+2;" "b").run.1)
      (by decide +kernel)
    obtain ⟨d, hd, -, -, hcode⟩ := hcompile true c c' hc hc'
    exact ⟨c, c', d, hc, hc', hd, hcode⟩
  · obtain ⟨ss, hss⟩ := exists_of_isOk (r := (parseSource "int x=1;" "a").run.1) (by decide +kernel)
    obtain ⟨ss', hss'⟩ := exists_of_isOk (r := (parseSource "x=x+2;" "b").run.1) (by decide +kernel)
    obtain ⟨program, hprogram, -, hcheck⟩ := hparse ss ss' hss hss'
    exact ⟨ss, ss', program, hss, hss', hprogram, hcheck⟩

end ThreeAddress
