import ThreeAddress.Proofs.Token.Seam

/-!
# Writing tokens

Tokens that are written with a space between any two of them are read back as they were. The space
is enough to keep any two apart: no lexeme goes on with a blank (`ends_of_isBlank`), so the lexer
cuts the text where it was put together, and `/` and `*` do not open a comment, `!` and `=` do not
make an operator, and a word does not run into a number.

* `Token.WellFormed`: the text of the token is one that a lexeme of its kind can have.
* `Token.spaced`: tokens with single spaces between them.
* `decomposes_spaced`: such a text is cut into the tokens.

**Theorem (`scan_spaced`).** Well-formed tokens are read back from their written form, and the
tokens of every source text are well formed, but for the end of input and a comment that is not
closed.
-/

namespace ThreeAddress

open Token

namespace Token

/-- The text of the token follows the rule for its kind. -/
def WellFormed (t : Token) : Prop := Spelling t.kind t.text.toList

/-- The token as it stands in a source text, a string between its quotes. -/
def lexeme (t : Token) : String := String.ofList (written t.kind t.text.toList)

/-- Tokens in a row, with single spaces between them. -/
def spaced (tokens : List Token) : String := " ".intercalate (tokens.map lexeme)

/-- What follows the first of some tokens that are written in a row. -/
def spacedTail : List Token → List Char
  | [] => []
  | t :: ts => ' ' :: (spaced (t :: ts)).toList

theorem toList_spaced_cons (t : Token) (ts : List Token) :
    (spaced (t :: ts)).toList = written t.kind t.text.toList ++ spacedTail ts := by
  cases ts with
  | nil => simp [spaced, spacedTail, lexeme]
  | cons u us => simp [spaced, spacedTail, lexeme]

theorem ends_spacedTail (k : Kind) (value : List Char) (ts : List Token) :
    Ends k value (spacedTail ts) := by
  cases ts with
  | nil => exact fun _ hc => absurd hc (Option.not_mem_none _)
  | cons t ts => exact ends_of_isBlank (by decide) k value _

/-- **The text is cut where it was put together.** -/
theorem decomposes_spaced {tokens : List Token} (h : ∀ t ∈ tokens, t.WellFormed) (n : Nat) :
    ∃ pieces, Decomposes n (spaced tokens).toList pieces ∧
      pieces.map Piece.word = tokens.map word ++ [endWord] := by
  induction tokens generalizing n with
  | nil => exact ⟨_, .finish .nil, rfl⟩
  | cons t ts ih =>
    obtain ⟨ht, hts⟩ := List.forall_mem_cons.1 h
    have htail : ∀ m, ∃ pieces, Decomposes m (spacedTail ts) pieces ∧
        pieces.map Piece.word = ts.map word ++ [endWord] := by
      intro m
      cases ts with
      | nil => exact ⟨_, .finish .nil, rfl⟩
      | cons u us =>
        obtain ⟨pieces, hpieces, hwords⟩ := ih hts (m + 1)
        exact ⟨pieces, .gap (.blank (by decide) .nil) hpieces, hwords⟩
    obtain ⟨pieces, hpieces, hwords⟩ := htail (n + (written t.kind t.text.toList).length)
    have hpiece := Decomposes.lexeme (n := n) (g := []) .nil ht (ends_spacedTail _ _ ts) hpieces
    rw [List.nil_append, ← toList_spaced_cons] at hpiece
    refine ⟨_, hpiece, ?_⟩
    rw [List.map_cons, hwords, Piece.word, String.ofList_toList]
    rfl

end Token

/-- **Reading tokens undoes writing them.** -/
theorem scan_spaced :
    (∀ (tokens : List Token) (file : String), (∀ t ∈ tokens, t.WellFormed) →
      ∃ read, (Scan.ofSource (spaced tokens) file).result = .ok read ∧
        read.map word = tokens.map word ++ [(.endOfInput, "")]) ∧
    ∀ (source file : String), ∀ t ∈ (Scan.ofSource source file).tokens,
      t.kind ≠ .endOfInput → t.word ≠ (.unknown, unclosedComment) → t.WellFormed := by
  constructor
  · intro tokens file h
    obtain ⟨pieces, hpieces, hwords⟩ := decomposes_spaced h 0
    obtain ⟨read, hresult, hread⟩ := Scan.words_of_decomposes hpieces file
    exact ⟨read, hresult, hread.trans hwords⟩
  · intro source file t ht hend hcomment
    rcases Scan.ofSource_lexical source file t ht with hspelling | ⟨hkind, -⟩ | ⟨hkind, htext⟩
    · exact hspelling
    · exact absurd hkind hend
    · exact absurd (Prod.ext hkind htext) hcomment

/-- Tokens that run together without spaces: words and numbers, a number and a point, the two marks
that open a comment, and the parts of operators. -/
def adjacentTokens : List Token :=
  [⟨.ifWord, "if", none⟩, ⟨.identifier, "x2", none⟩, ⟨.intLiteral, "2", none⟩,
    ⟨.unknown, ".", none⟩, ⟨.floatLiteral, "1.", none⟩, ⟨.divide, "/", none⟩, ⟨.times, "*", none⟩,
    ⟨.unknown, "!", none⟩, ⟨.assign, "=", none⟩, ⟨.equal, "==", none⟩,
    ⟨.stringLiteral, "//\n", none⟩]

theorem adjacentTokens_wellFormed : ∀ t ∈ adjacentTokens, t.WellFormed := by
  simp only [adjacentTokens, List.forall_mem_cons, WellFormed]
  refine ⟨?_, ?_, ?_, ?_, ?_, ?_, ?_, ?_, ?_, ?_, ?_, ?_⟩
  · exact @Spelling.word 'i' ['f'] (by decide) (List.forall_mem_singleton.2 (by decide))
  · exact @Spelling.word 'x' ['2'] (by decide) (List.forall_mem_singleton.2 (by decide))
  · exact @Spelling.int ['2'] (by decide) (List.forall_mem_singleton.2 (by decide))
  · exact .unknown (by decide) (by decide) (by decide) (by decide) rfl
  · exact @Spelling.float ['1'] [] (by decide) (List.forall_mem_singleton.2 (by decide))
      fun _ hc => absurd hc List.not_mem_nil
  · exact .symbol rfl
  · exact .symbol rfl
  · exact .unknown (by decide) (by decide) (by decide) (by decide) rfl
  · exact .symbol rfl
  · exact .pair rfl
  · exact .string (by decide)
  · exact fun _ h => absurd h List.not_mem_nil

theorem adjacentTokens_read :
    (∀ t ∈ adjacentTokens, t.WellFormed) ∧
      (∃ read, (Scan.ofSource (spaced adjacentTokens) "").result = .ok read ∧
        read.map word = adjacentTokens.map word ++ [(.endOfInput, "")]) ∧
      (⟨.unknown, "!", some ⟨"", 1, 7, 6⟩⟩ : Token) ∈ (Scan.ofSource "a/* */!" "").tokens ∧
      (⟨.unknown, "!", some ⟨"", 1, 7, 6⟩⟩ : Token).WellFormed := by
  have hmem : (⟨.unknown, "!", some ⟨"", 1, 7, 6⟩⟩ : Token) ∈
      (Scan.ofSource "a/* */!" "").tokens := by
    decide +kernel
  refine ⟨adjacentTokens_wellFormed, scan_spaced.1 _ "" adjacentTokens_wellFormed, hmem, ?_⟩
  exact scan_spaced.2 _ _ _ hmem (by decide) (by decide)

end ThreeAddress
