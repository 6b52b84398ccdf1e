import ThreeAddress.Proofs.Compilation.Rejection
import ThreeAddress.Proofs.Compilation.Stages
import ThreeAddress.Proofs.Token.Position
import ThreeAddress.Proofs.Typing.Blame

/-!
# What a diagnostic quotes

A problem has the place of a token, and quotes the line of that number. Lines are numbered by
newlines, but the line to quote is taken from the text cut at other characters, too.

* `Refused`: the text is compiled or parsed, and has a problem of the grammar or of types.
* `Refused.token`: the problem is one at a token of the text.

**Theorem (`problem_quotes`).** The problem quotes the line with the number of the token's row. If
no other character ends a line up to there, then that is the row of the token, and the token stands
in it at the column of the problem.

Another character that ends a line in front of the token shifts the numbers, and what is quoted is
not the line of the token (`exists_misquoted`).
-/

namespace ThreeAddress

open Text

/-! ## Tokens at fault -/

namespace Grammar

/-- A supply of tokens is rejected at one of them, or for the fault behind them. -/
theorem ofSupply_token {supply : Supply} {lines : List String} {p : Problem}
    (hlexical : ∀ t ∈ supply.upcoming, t.Lexical)
    (hend : supply.fault = none → ∃ t ∈ supply.upcoming, t.kind = .endOfInput)
    (h : ofSupply supply lines = .error p) :
    supply.fault = some p ∨ ∃ t ∈ supply.upcoming, ∃ cause,
      p = ⟨cause, t.location, quoteLine lines t.location⟩ := by
  obtain ⟨upcoming, fault⟩ := supply
  cases upcoming with
  | nil =>
    cases fault with
    | some q =>
      cases h
      exact .inl rfl
    | none =>
      obtain ⟨t, ht, -⟩ := hend rfl
      cases ht
  | cons t rest =>
    let r : Reader := ⟨t, ⟨rest, fault⟩, lines⟩
    obtain ⟨s, hrun⟩ : ∃ s, program r = .error p s := run_eq_error_iff.1 h
    have hlexical' : r.Lexical := fun u hu => hlexical u ((List.takeWhile_sublist _).mem hu)
    rcases (program_fits r hlexical' hend).of_error hrun with
      ⟨ts, cause, hm, -, -, rfl⟩ | ⟨hfault, -⟩
    · have htokens : t :: rest = ts ++ s.tokens := hm.tokens
      refine .inr ⟨s.current, ?_, cause, ?_⟩
      · rw [htokens]
        exact List.mem_append_right _ List.mem_cons_self
      · rw [Reader.problem, hm.lines]
    · exact .inl hfault

end Grammar

/-- The text is compiled or parsed, and refused for a problem of the grammar or of types. -/
def Refused (source file : String) (p : Problem) : Prop :=
  ((∃ options, (compile options source file).run.1 = .error (.problem p)) ∨
    (parseSource source file).run.1 = .error (.problem p)) ∧
  (Category.syntactic ∈ p.cause.category.lineage ∨ Category.semantic ∈ p.cause.category.lineage)

section Quotation

variable {source file : String} {p : Problem}

/-- The problem is not that a string is not closed. -/
theorem Refused.not_fault (h : Refused source file p) :
    (Scan.ofSource source file).fault ≠ some p := by
  intro hfault
  have hcause := Scan.upTo_fault hfault
  have hcategory := h.2
  rw [hcause] at hcategory
  revert hcategory
  decide

/-- A program is refused at one of its nodes, and the node is there for a token. -/
theorem token_of_untyped {program : List Node} (hreads : Reads source file program)
    (h : (typecheck (lines source) program).run.1 = .error (.problem p)) :
    ∃ t ∈ (Scan.ofSource source file).tokens, ∃ cause,
      p = ⟨cause, t.location, quoteLine (lines source) t.location⟩ := by
  obtain ⟨n, hn, cause, rfl, -⟩ := Typing.typecheck_blames h p rfl
  obtain ⟨t, ht, -, hstems⟩ := hreads.exists_stem n hn
  refine ⟨t, ht, cause, ?_⟩
  rw [Typing.problemAt, hstems.location]

/-- **The problem is one at a token of the text.** -/
theorem Refused.token (h : Refused source file p) :
    ∃ t ∈ (Scan.ofSource source file).tokens, ∃ cause,
      p = ⟨cause, t.location, quoteLine (lines source) t.location⟩ := by
  have hfault := h.not_fault
  obtain ⟨⟨options, hcompile⟩ | hparse, hcategory⟩ := h
  · obtain ⟨after, hrun⟩ := Work.run_eq_error_iff.1 hcompile
    have hnone : Notice.AllWritten [] := fun _ hn => absurd hn List.not_mem_nil
    have hstops : Stops options source file (.problem p) := (compile_stages hnone).of_error hrun
    cases hstops with
    | unread hscan => exact absurd (Scan.fault_of_result hscan) hfault
    | @ungrammatical tokens _ hscan hreject =>
      obtain ⟨ts, c, rest, cause, rfl, -, -, hp, -⟩ :=
        Grammar.ofTokens_rejected (Grammar.lexical_of_result hscan)
          (Grammar.exists_endOfInput hscan) hreject
      obtain ⟨-, htokens⟩ := Scan.result_eq_ok_iff.1 hscan
      rw [htokens]
      exact ⟨c, List.mem_append_right _ List.mem_cons_self, cause, hp⟩
    | untyped hreads _ htypes => exact token_of_untyped hreads htypes
    | unfolded _ _ _ hfolding =>
      have hfolded : p.cause.category = .folding := hfolding.ofFolding
      rw [hfolded] at hcategory
      exact absurd hcategory (by decide)
  · have hproblem := problem_of_parseSource hparse
    rw [Grammar.ofSource_eq_ofSupply] at hproblem
    have hend : (Scan.ofSource source file).fault = none →
        ∃ t ∈ (Scan.ofSource source file).tokens, t.kind = .endOfInput :=
      fun hnone => Grammar.exists_endOfInput (Scan.result_eq_ok_iff.2 ⟨hnone, rfl⟩)
    rcases Grammar.ofSupply_token (Scan.ofSource_lexical source file) hend hproblem with
      hfault' | htoken
    · exact absurd hfault' hfault
    · exact htoken

/-- **What a problem quotes.** -/
theorem problem_quotes (h : Refused source file p) :
    ∃ t ∈ (Scan.ofSource source file).tokens, ∃ l, t.location = some l ∧ p.location = some l ∧
      p.line = line? (lines source) l.line ∧
      ∀ text, p.line = some text →
        (∀ row ∈ (rows source.toList).take l.line.toNat, Unbroken row) →
        ∃ row, (rows source.toList)[(l.line - 1).toNat]? = some row ∧
          text.toList = withoutReturn row ∧
          0 < l.column ∧ text.toList[(l.column - 1).toNat]? = t.first? ∧
          (t.first? = none → l.column = row.length + 1) := by
  obtain ⟨t, ht, cause, rfl⟩ := h.token
  have hstarts : t.StartsIn source.toList :=
    Scan.upTo_startsIn _ (Cursor.start_standsIn source file) t ht
  obtain ⟨l, row, hlocation, hline, hcolumn, hrow, hfirst, hend⟩ := hstarts.row
  refine ⟨t, ht, l, hlocation, hlocation, ?_, fun text htext hunbroken => ⟨row, hrow, ?_⟩⟩
  · show quoteLine (lines source) t.location = _
    rw [hlocation]
    rfl
  · have hquote : line? (lines source) l.line = some text := by
      rw [← htext, hlocation]
      rfl
    rw [line?, if_neg (by omega)] at hquote
    have hnumber : (l.line - 1).toNat + 1 = l.line.toNat := by omega
    obtain ⟨row', hrow', htoList⟩ := lines_getElem? (hnumber ▸ hunbroken) hquote
    cases hrow.symm.trans hrow'
    refine ⟨htoList, hcolumn, ?_, hend⟩
    rw [htoList, withoutReturn_getElem?, hfirst]
    -- A carriage return is blank, and no token starts with it.
    intro hreturn
    cases hstarts.isBlank_eq (hfirst.symm.trans hreturn)

end Quotation

/-- A variable that is not declared, in a line behind a comment of two lines. -/
def commentedLines : String := "/* a\r\n b */ int x = 1;\r\ny = 2;"

theorem commentedLines_quoted :
    Refused commentedLines "a" ⟨.undeclared "y", some ⟨"a", 3, 1, 24⟩, some "y = 2;"⟩ ∧
      ∃ t ∈ (Scan.ofSource commentedLines "a").tokens, t.location = some ⟨"a", 3, 1, 24⟩ ∧
        ∃ row, (rows commentedLines.toList)[2]? = some row ∧
          "y = 2;".toList = withoutReturn row ∧ "y = 2;".toList[0]? = t.first? := by
  have hrefused : Refused commentedLines "a"
      ⟨.undeclared "y", some ⟨"a", 3, 1, 24⟩, some "y = 2;"⟩ := by
    have hrun : (compile {} commentedLines "a").run.1.map (fun _ => ()) = .error
        (.problem ⟨.undeclared "y", some ⟨"a", 3, 1, 24⟩, some "y = 2;"⟩) := by decide +kernel
    exact ⟨.inl ⟨{}, eq_error_of_map hrun⟩, by decide⟩
  obtain ⟨t, ht, l, hlocation, hp, -, hquotes⟩ := problem_quotes hrefused
  cases hp
  obtain ⟨row, hrow, htext, -, hfirst, -⟩ := hquotes "y = 2;" rfl (by decide +kernel)
  exact ⟨hrefused, t, ht, hlocation, row, hrow, htext, hfirst⟩

/-- A form feed ends a line to quote, but no row. -/
theorem exists_misquoted :
    ∃ source file p l text row, Refused source file p ∧ p.location = some l ∧
      p.line = some text ∧ (rows source.toList)[(l.line - 1).toNat]? = some row ∧
      text.toList ≠ row ∧ text.toList ≠ withoutReturn row ∧
      ∀ t ∈ (Scan.ofSource source file).tokens, t.location = some l →
        text.toList[(l.column - 1).toNat]? ≠ t.first? := by
  refine ⟨"int x = 1;\x0c\ny = 2;", "a", ⟨.undeclared "y", some ⟨"a", 2, 1, 12⟩, some ""⟩, _, _,
    "y = 2;".toList, ⟨.inl ⟨{}, eq_error_of_map ?_⟩, by decide⟩, rfl, rfl, ?_⟩
  · decide +kernel
  · decide +kernel

end ThreeAddress
