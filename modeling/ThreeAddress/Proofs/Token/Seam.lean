import ThreeAddress.Proofs.Token.Decomposition

/-!
# Texts put together

Where two texts can be put together so that the tokens of the whole are those of the parts.

* `ends_of_isBlank`: a blank ends every lexeme.
* `Decomposes.gap`: a gap in front changes no token.
* `Decomposes.seam`: a newline between two texts keeps the tokens of both, unless the first one ends
  inside of a comment.
-/

namespace ThreeAddress

open Text Token

/-! ## Words -/

/-- What a token is, wherever it stands. -/
def Token.word (t : Token) : Kind × String := (t.kind, t.text)

def Piece.word (p : Piece) : Kind × String := (p.kind, p.text)

theorem Token.map_word (tokens : List Token) :
    tokens.map word = (tokens.map piece).map Piece.word := by
  rw [List.map_map]
  rfl

/-- The word of the end of input. -/
def endWord : Kind × String := (.endOfInput, "")

/-- A text that can be cut is read, and its tokens are the pieces. -/
theorem Scan.words_of_decomposes {source : String} {pieces : List Piece}
    (h : Decomposes 0 source.toList pieces) (file : String) :
    ∃ tokens, (Scan.ofSource source file).result = .ok tokens ∧
      tokens.map Token.word = pieces.map Piece.word := by
  obtain ⟨hfault, hpieces⟩ := Scan.ofSource_of_decomposes h file
  refine ⟨_, Scan.result_eq_ok_iff.2 ⟨hfault, rfl⟩, ?_⟩
  rw [Token.map_word, hpieces]

namespace Token

/-! ## Ends of lexemes -/

theorem continues_of_isBlank {c : Char} (h : isBlank c = true) (k : Kind) (value : List Char) :
    continues k value c = false := by
  have hletter : isLetter c = false := by
    by_contra hc
    simp [isBlank_of_isLetter (Bool.not_eq_false _ ▸ hc)] at h
  have hdigit : isDecimalDigit c = false := by
    by_contra hc
    simp [Literal.isBlank_of_isDecimalDigit (Bool.not_eq_false _ ▸ hc)] at h
  have hne : ∀ d, isBlank d = false → c ≠ d := by
    rintro d hd rfl
    simp [hd] at h
  cases k <;> simp [continues, Kind.isWord, continuesName, hletter, hdigit, hne '.' (by decide),
    hne '=' (by decide), hne '/' (by decide), hne '*' (by decide)]

/-- **A blank ends every lexeme.** -/
theorem ends_of_isBlank {c : Char} (h : isBlank c = true) (k : Kind) (value rest : List Char) :
    Ends k value (c :: rest) := by
  rintro d hd
  obtain rfl := Option.some.inj hd
  exact continues_of_isBlank h k value

/-! ## Gaps -/

variable {g g' behind text : List Char} {pieces : List Piece} {n : Nat}

/-- One gap behind the other is a gap. -/
theorem IsGap.append (h : IsGap g (g' ++ behind)) (h' : IsGap g' behind) :
    IsGap (g ++ g') behind := by
  generalize hbehind : g' ++ behind = rest at h
  induction h with
  | nil => exact h'
  | blank hc _ ih => exact .blank hc (ih hbehind)
  | line hbody hend _ ih =>
    subst hbehind
    rw [List.cons_append, List.cons_append, List.append_assoc]
    exact .line hbody (by rwa [List.append_assoc]) (ih rfl)
  | block hbody _ ih =>
    rw [List.cons_append, List.cons_append, List.append_assoc]
    exact .block hbody (ih hbehind)

/-- A gap is one in front of a longer text, too, if this goes on behind the first one or starts with
a newline. -/
theorem IsGap.extend (h : IsGap g behind) (more : List Char)
    (hmore : behind = [] → ∀ c ∈ more.head?, c = '\n') : IsGap g (behind ++ more) := by
  induction h with
  | nil => exact .nil
  | blank hc _ ih => exact .blank hc (ih hmore)
  | @line body gap behind hbody hend _ ih =>
    refine .line hbody ?_ (ih hmore)
    cases gap with
    | cons c gap => exact hend
    | nil =>
      cases behind with
      | cons c behind => exact hend
      | nil => exact hmore rfl
  | block hbody _ ih => exact .block hbody (ih hmore)

/-- **A gap in front of a text** changes none of its tokens. -/
theorem Decomposes.gap (hg : IsGap g text) (h : Decomposes (n + g.length) text pieces) :
    Decomposes n (g ++ text) pieces := by
  cases h with
  | finish hgap =>
    rw [Nat.add_assoc, ← List.length_append]
    exact .finish (.append (by simpa using hg) hgap)
  | unclosed hgap hbody =>
    rw [Nat.add_assoc, ← List.length_append, ← List.append_assoc]
    exact .unclosed (.append hg hgap) hbody
  | lexeme hgap hspelling hends hrest =>
    have hgap' := hg.append hgap
    rw [Nat.add_assoc n, ← List.length_append] at hrest ⊢
    rw [← List.append_assoc]
    exact .lexeme hgap' hspelling hends hrest

/-- The text can be cut from any other offset on. -/
theorem Lexes.shift {fault : Option Nat} (h : Lexes n text pieces fault) (m : Nat) :
    ∃ pieces' fault', Lexes m text pieces' fault' ∧
      pieces'.map Piece.word = pieces.map Piece.word ∧ (fault' = none ↔ fault = none) := by
  induction h generalizing m with
  | finish hgap => exact ⟨_, _, .finish hgap, rfl, Iff.rfl⟩
  | unclosed hgap hbody => exact ⟨_, _, .unclosed hgap hbody, rfl, Iff.rfl⟩
  | openString hgap hquote => exact ⟨_, _, .openString hgap hquote, rfl, nofun, nofun⟩
  | lexeme hgap hspelling hends _ ih =>
    obtain ⟨pieces', fault', hpieces, hwords, hfault⟩ := ih _
    refine ⟨_, _, .lexeme hgap hspelling hends hpieces, ?_, hfault⟩
    rw [List.map_cons, hwords]
    rfl

theorem Decomposes.shift (h : Decomposes n text pieces) (m : Nat) :
    ∃ pieces', Decomposes m text pieces' ∧ pieces'.map Piece.word = pieces.map Piece.word := by
  obtain ⟨pieces', fault', hpieces, hwords, hfault⟩ := h.lexes.shift m
  obtain rfl := hfault.2 rfl
  exact ⟨pieces', hpieces.decomposes, hwords⟩

/-! ## Seams -/

theorem Ends.newline {k : Kind} {value rest : List Char} (h : Ends k value rest)
    (more : List Char) : Ends k value (rest ++ '\n' :: more) := by
  cases rest with
  | nil => exact ends_of_isBlank (by decide) k value more
  | cons c rest => exact h

/-- The end of input is the last piece of a text, and no other one. -/
theorem Decomposes.exists_front (h : Decomposes n text pieces) :
    ∃ front o, pieces = front ++ [⟨.endOfInput, "", o⟩] ∧ ∀ p ∈ front, p.kind ≠ .endOfInput := by
  induction h with
  | finish => exact ⟨[], _, rfl, fun _ hp => absurd hp List.not_mem_nil⟩
  | unclosed => exact ⟨[_], _, rfl, List.forall_mem_singleton.2 nofun⟩
  | lexeme _ hspelling _ _ ih =>
    obtain ⟨front, o, rfl, hfront⟩ := ih
    exact ⟨_ :: front, o, rfl, List.forall_mem_cons.2 ⟨hspelling.ne_endOfInput, hfront⟩⟩

/-- The pieces of a text end in a comment that is not closed. -/
def EndsOpen (pieces : List Piece) : Prop :=
  ∃ front o, pieces = front ++ [⟨.unknown, unclosedComment, o⟩, ⟨.endOfInput, "", o⟩]

theorem EndsOpen.cons {p : Piece} (h : EndsOpen pieces) : EndsOpen (p :: pieces) := by
  obtain ⟨front, o, rfl⟩ := h
  exact ⟨p :: front, o, rfl⟩

/-- **A newline between two texts** keeps the pieces of both but for the end of input between them,
unless a comment goes on over the newline. -/
theorem Decomposes.seam (h : Decomposes n text pieces) :
    EndsOpen pieces ∨
      ∃ front o, pieces = front ++ [⟨.endOfInput, "", o⟩] ∧
        ∀ {more pieces'}, Decomposes (n + text.length) ('\n' :: more) pieces' →
          Decomposes n (text ++ '\n' :: more) (front ++ pieces') := by
  induction h with
  | finish hgap =>
    refine .inr ⟨[], _, rfl, fun {more pieces'} hmore => .gap ?_ hmore⟩
    exact hgap.extend ('\n' :: more) fun _ c hc => (Option.some.inj hc).symm
  | unclosed => exact .inl ⟨[], _, rfl⟩
  | @lexeme n g value rest k pieces hgap hspelling hends _ ih =>
    rcases ih with hopen | ⟨front, o, rfl, hseam⟩
    · exact .inl hopen.cons
    · refine .inr ⟨_ :: front, o, rfl, fun {more pieces'} hmore => ?_⟩
      have hne : written k value ++ rest ≠ [] :=
        List.append_ne_nil_of_left_ne_nil hspelling.written_ne_nil _
      have hgap' := hgap.extend ('\n' :: more) fun h => absurd h hne
      rw [List.append_assoc] at hgap' ⊢
      rw [List.append_assoc]
      refine .lexeme hgap' hspelling (hends.newline more) (hseam ?_)
      simpa [Nat.add_assoc] using hmore

end Token

/-! ## Source texts -/

/-- The tokens that are read are the pieces of the text. -/
theorem Scan.decomposes_of_result {source file : String} {tokens : List Token}
    (h : (Scan.ofSource source file).result = .ok tokens) (n : Nat) :
    ∃ pieces, Decomposes n source.toList pieces ∧
      pieces.map Piece.word = tokens.map Token.word := by
  obtain ⟨hfault, rfl⟩ := Scan.result_eq_ok_iff.1 h
  obtain ⟨pieces, hpieces⟩ := Scan.exists_decomposes hfault
  obtain ⟨-, hread⟩ := Scan.ofSource_of_decomposes hpieces file
  obtain ⟨pieces', hpieces', hwords⟩ := hpieces.shift n
  refine ⟨pieces', hpieces', ?_⟩
  rw [hwords, Token.map_word, hread]

/-- The end of input is the last word that is read, and no other one. -/
theorem Scan.exists_front {source file : String} {tokens : List Token}
    (h : (Scan.ofSource source file).result = .ok tokens) :
    ∃ front, tokens.map Token.word = front ++ [endWord] ∧ ∀ w ∈ front, w.1 ≠ .endOfInput := by
  obtain ⟨pieces, hpieces, hwords⟩ := decomposes_of_result h 0
  obtain ⟨front, o, rfl, hfront⟩ := hpieces.exists_front
  refine ⟨front.map Piece.word, ?_, ?_⟩
  · rw [← hwords, List.map_append]
    rfl
  · exact List.forall_mem_map.2 hfront

/-- **Two source texts with a newline between them** have the words of both, unless the first one
ends inside of a comment. -/
theorem Scan.words_seam {source source' file file' : String} {tokens tokens' : List Token}
    (h : (Scan.ofSource source file).result = .ok tokens)
    (h' : (Scan.ofSource source' file').result = .ok tokens') :
    (∃ front, tokens.map Token.word = front ++ [(.unknown, unclosedComment), endWord]) ∨
      ∃ front, tokens.map Token.word = front ++ [endWord] ∧
        ∀ whole, ∃ both, (Scan.ofSource (source ++ "\n" ++ source') whole).result = .ok both ∧
          both.map Token.word = front ++ tokens'.map Token.word := by
  obtain ⟨pieces, hpieces, hwords⟩ := decomposes_of_result h 0
  obtain ⟨pieces', hpieces', hwords'⟩ := decomposes_of_result h' (0 + source.toList.length + 1)
  rw [← hwords, ← hwords']
  rcases hpieces.seam with ⟨front, o, rfl⟩ | ⟨front, o, rfl, hseam⟩
  · refine .inl ⟨front.map Piece.word, ?_⟩
    rw [List.map_append]
    rfl
  · refine .inr ⟨front.map Piece.word, ?_, fun whole => ?_⟩
    · rw [List.map_append]
      rfl
    · have hnewline : IsGap ['\n'] source'.toList := .blank (by decide) .nil
      have hboth : Decomposes 0 (source ++ "\n" ++ source').toList (front ++ pieces') := by
        simpa using hseam (.gap hnewline hpieces')
      obtain ⟨both, hresult, hboth⟩ := words_of_decomposes hboth whole
      exact ⟨both, hresult, by rw [hboth, List.map_append]⟩

end ThreeAddress
