import ThreeAddress.Proofs.Token.Longest

/-!
# Decomposition of source texts

Reading tokens cuts a text into gaps and lexemes. The cut is described apart from the lexer, by what
may stand next to what, and the lexer makes the only one that there is.

* `Piece`: a token with the offset of its place.
* `Decomposes`: a text is a sequence of gaps and lexemes, each of which ends where it may.
* `Lexes`: the same for any text, up to a string that is not closed.
* `begins`: how a text can begin, a string without an end included.
* `Cursor.Answers`: all that a cursor can do when it is asked for a token.
* `Scan.ofSource_of_lexes`: the lexer reads the pieces of any text.
* `Scan.exists_decomposes`: what the lexer reads without a problem is a decomposition.

**Theorem (`scan_iff_decomposes`).** The tokens of a source text are the pieces of its only
decomposition, and a text whose reading ends in a problem has none.

That no lexeme can be longer is part of a decomposition: its lexemes end (`Ends`), and one that ends
is the longest at its place (`Ends.longest`).
-/

namespace ThreeAddress

/-- A token with the offset of its place, whatever its file, line and column. -/
structure Piece where
  kind : Kind
  text : String
  offset : Option Int
  deriving DecidableEq, Repr

def Token.piece (t : Token) : Piece := ⟨t.kind, t.text, t.location.map (·.offset)⟩

namespace Token

/-- The text from an offset on is cut into pieces: gaps and lexemes in turn, and a last gap, at the
end of which is the end of input. If that gap ends in a comment that is not closed, then a piece for
the comment stands there too. No lexeme goes on in the text behind it. -/
inductive Decomposes : Nat → List Char → List Piece → Prop
  | finish {n : Nat} {g : List Char} :
      IsGap g [] → Decomposes n g [⟨.endOfInput, "", some (n + g.length : Nat)⟩]
  | unclosed {n : Nat} {g body : List Char} :
      IsGap g ('/' :: '*' :: body) → Unclosed body →
      Decomposes n (g ++ '/' :: '*' :: body)
        [⟨.unknown, unclosedComment, some (n + (g ++ '/' :: '*' :: body).length : Nat)⟩,
          ⟨.endOfInput, "", some (n + (g ++ '/' :: '*' :: body).length : Nat)⟩]
  | lexeme {n : Nat} {g value rest : List Char} {k : Kind} {pieces : List Piece} :
      IsGap g (written k value ++ rest) → Spelling k value → Ends k value rest →
      Decomposes (n + g.length + (written k value).length) rest pieces →
      Decomposes n (g ++ (written k value ++ rest))
        (⟨k, String.ofList value, some (n + g.length : Nat)⟩ :: pieces)

/-- Any text from an offset on is cut into pieces in this way, up to a string that is not closed,
whose offset is told with the pieces. -/
inductive Lexes : Nat → List Char → List Piece → Option Nat → Prop
  | finish {n : Nat} {g : List Char} :
      IsGap g [] → Lexes n g [⟨.endOfInput, "", some (n + g.length : Nat)⟩] none
  | unclosed {n : Nat} {g body : List Char} :
      IsGap g ('/' :: '*' :: body) → Unclosed body →
      Lexes n (g ++ '/' :: '*' :: body)
        [⟨.unknown, unclosedComment, some (n + (g ++ '/' :: '*' :: body).length : Nat)⟩,
          ⟨.endOfInput, "", some (n + (g ++ '/' :: '*' :: body).length : Nat)⟩] none
  | openString {n : Nat} {g body : List Char} :
      IsGap g ('"' :: body) → '"' ∉ body → Lexes n (g ++ '"' :: body) [] (some (n + g.length))
  | lexeme {n : Nat} {g value rest : List Char} {k : Kind} {pieces : List Piece}
      {fault : Option Nat} :
      IsGap g (written k value ++ rest) → Spelling k value → Ends k value rest →
      Lexes (n + g.length + (written k value).length) rest pieces fault →
      Lexes n (g ++ (written k value ++ rest))
        (⟨k, String.ofList value, some (n + g.length : Nat)⟩ :: pieces) fault

theorem Decomposes.lexes {n : Nat} {text : List Char} {pieces : List Piece}
    (h : Decomposes n text pieces) : Lexes n text pieces none := by
  induction h with
  | finish hg => exact .finish hg
  | unclosed hg hbody => exact .unclosed hg hbody
  | lexeme hg hspelling hends _ ih => exact .lexeme hg hspelling hends ih

theorem Lexes.decomposes {n : Nat} {text : List Char} {pieces : List Piece}
    (h : Lexes n text pieces none) : Decomposes n text pieces := by
  generalize hfault : (none : Option Nat) = fault at h
  induction h with
  | finish hg => exact .finish hg
  | unclosed hg hbody => exact .unclosed hg hbody
  | openString => cases hfault
  | lexeme hg hspelling hends _ ih => exact .lexeme hg hspelling hends (ih hfault)

theorem Spelling.written_ne_nil {k : Kind} {value : List Char} (h : Spelling k value) :
    written k value ≠ [] := by
  unfold written
  split_ifs
  · exact List.cons_ne_nil _ _
  · cases h with
    | int hne => exact hne
    | float => exact List.append_ne_nil_of_right_ne_nil _ (List.cons_ne_nil _ _)
    | string => contradiction
    | word | pair | symbol | unknown => exact List.cons_ne_nil _ _

/-- Behind a lexeme there is less text than before. -/
theorem Spelling.length_rest_lt {k : Kind} {value : List Char} (h : Spelling k value)
    (g rest : List Char) : rest.length < (g ++ (written k value ++ rest)).length := by
  have hpos := List.length_pos_of_ne_nil h.written_ne_nil
  simp only [List.length_append]
  omega

theorem Spelling.ne_endOfInput {k : Kind} {value : List Char} (h : Spelling k value) :
    k ≠ .endOfInput := by
  cases h with
  | word => exact Kind.ofWord_ne rfl _
  | pair hpair =>
    rintro rfl
    exact absurd hpair (Kind.ofPair?_ne rfl _ _)
  | symbol hsymbol =>
    rintro rfl
    exact absurd hsymbol (Kind.ofSymbol?_ne rfl _)
  | int | float | string | unknown => nofun

/-- How a text begins: with a gap, and behind it nothing, or a comment or a string that is not
closed, or a lexeme that ends. -/
inductive Begins : List Char → Prop
  | finish {g : List Char} : IsGap g [] → Begins g
  | openComment {g body : List Char} :
      IsGap g ('/' :: '*' :: body) → Unclosed body → Begins (g ++ '/' :: '*' :: body)
  | openString {g body : List Char} :
      IsGap g ('"' :: body) → '"' ∉ body → Begins (g ++ '"' :: body)
  | lexeme {g value rest : List Char} {k : Kind} :
      IsGap g (written k value ++ rest) → Spelling k value → Ends k value rest →
      Begins (g ++ (written k value ++ rest))

/-- **Every text begins** in one of these ways. -/
theorem begins (text : List Char) : Begins text := by
  cases front text with
  | unclosed hg hbody => exact .openComment hg hbody
  | @clear g behind hg hclear =>
    cases behind with
    | nil =>
      rw [List.append_nil]
      exact .finish hg
    | cons head tail =>
      cases hl : lexeme? head tail with
      | none =>
        obtain ⟨rfl, hquote⟩ := lexeme?_eq_none_iff.1 hl
        exact .openString hg hquote
      | some l =>
        have hspelling := lexeme?_spelling (isBlank_of_gap_eq hclear) hl
        obtain ⟨rest, hrest, hends, -⟩ := lexeme?_fits hclear hl
        rw [hrest] at hg ⊢
        exact .lexeme hg hspelling hends

theorem exists_lexes (n : Nat) (text : List Char) : ∃ pieces fault, Lexes n text pieces fault := by
  induction hm : text.length using Nat.strong_induction_on generalizing n text with
  | _ m ih =>
    cases begins text with
    | finish hg => exact ⟨_, _, .finish hg⟩
    | openComment hg hbody => exact ⟨_, _, .unclosed hg hbody⟩
    | openString hg hquote => exact ⟨_, _, .openString hg hquote⟩
    | @lexeme g value rest k hg hspelling hends =>
      obtain ⟨pieces, fault, hpieces⟩ := ih rest.length (hm ▸ hspelling.length_rest_lt g rest)
        (n + g.length + (written k value).length) rest rfl
      exact ⟨_, _, .lexeme hg hspelling hends hpieces⟩

end Token

open Token

/-! ## One token -/

namespace Cursor

variable {c : Cursor} {g body rest value : List Char} {k : Kind}

theorem advance_offset (h : c.rest ≠ []) : c.advance.offset = c.offset + 1 := by
  unfold advance
  split
  · contradiction
  · split_ifs <;> rfl

theorem forward_offset {n : Nat} (h : n ≤ c.rest.length) : (c.forward n).offset = c.offset + n := by
  induction n generalizing c with
  | zero => rfl
  | succ n ih =>
    have hne : c.rest ≠ [] := List.ne_nil_of_length_pos (by omega)
    have hrest : c.advance.rest = c.rest.drop 1 := forward_rest c 1
    rw [forward, ih (by rw [hrest, List.length_drop]; omega), advance_offset hne]
    omega

theorem forward_add (c : Cursor) (m n : Nat) : c.forward (m + n) = (c.forward m).forward n := by
  induction m generalizing c with
  | zero => rw [Nat.zero_add, forward]
  | succ m ih => rw [Nat.add_right_comm, forward, ih, forward]

theorem rest_forward_append (hrest : c.rest = g ++ rest) : (c.forward g.length).rest = rest := by
  rw [forward_rest, hrest, List.drop_left]

theorem gap_rest (hrest : c.rest = g ++ rest) (hg : IsGap g rest)
    (h : gap .plain rest = ⟨0, true⟩) : gap .plain c.rest = ⟨g.length, true⟩ := by
  rw [hrest, hg.gap_append, h]
  rfl

theorem next_finish (hrest : c.rest = g) (hg : IsGap g []) :
    c.next = (.ok ⟨.endOfInput, "", (c.forward g.length).location⟩, c.forward g.length) := by
  rw [← List.append_nil g] at hrest
  have hgap := gap_rest hrest hg (by rw [gap])
  simp only [next, hgap, rest_forward_append hrest, if_true]

theorem next_unclosed (hrest : c.rest = g ++ '/' :: '*' :: body) (hg : IsGap g ('/' :: '*' :: body))
    (hbody : Unclosed body) :
    c.next = (.ok ⟨.unknown, unclosedComment, (c.forward c.rest.length).location⟩,
      c.forward c.rest.length) := by
  have hgap : gap .plain c.rest = ⟨c.rest.length, false⟩ := by
    rw [hrest, hg.gap_unclosed hbody]
    simp
  simp only [next, hgap, Bool.false_eq_true, if_false]

theorem next_lexeme (hrest : c.rest = g ++ (written k value ++ rest))
    (hg : IsGap g (written k value ++ rest)) (h : Spelling k value) (hends : Ends k value rest) :
    c.next = (.ok ⟨k, String.ofList value, (c.forward g.length).location⟩,
      (c.forward g.length).forward (written k value).length) := by
  have hgap := gap_rest hrest hg (gap_of_ends h hends)
  have hfront := rest_forward_append hrest
  cases htext : written k value ++ rest with
  | nil => exact absurd (List.append_eq_nil_iff.1 htext).1 h.written_ne_nil
  | cons head tail =>
    rw [htext] at hfront
    simp only [next, hgap, hfront, lexeme?_of_ends h hends htext, if_true]

theorem next_open (hrest : c.rest = g ++ '"' :: body) (hg : IsGap g ('"' :: body))
    (hbody : '"' ∉ body) :
    c.next = (.error ⟨.unterminatedString, (c.forward g.length).location,
      (c.forward g.length).lineText⟩, c.forward c.rest.length) := by
  have hgap := gap_rest hrest hg (gap_eq_zero (by decide) nofun)
  have hnone := lexeme?_eq_none_iff.2 ⟨rfl, hbody⟩
  have hlength : c.rest.length = g.length + ('"' :: body).length := by
    rw [hrest, List.length_append]
  simp only [next, hgap, rest_forward_append hrest, hnone, if_true]
  rw [hlength, forward_add]

/-- All that a call can do: what it gives, and the cursor that it leaves behind. -/
inductive Answers (c : Cursor) : Except Problem Token → Cursor → Prop
  | finish :
      IsGap c.rest [] → Answers c
        (.ok ⟨.endOfInput, "", (c.forward c.rest.length).location⟩) (c.forward c.rest.length)
  | openComment {g body : List Char} :
      c.rest = g ++ '/' :: '*' :: body → IsGap g ('/' :: '*' :: body) → Unclosed body → Answers c
        (.ok ⟨.unknown, unclosedComment, (c.forward c.rest.length).location⟩)
        (c.forward c.rest.length)
  | openString {g body : List Char} :
      c.rest = g ++ '"' :: body → IsGap g ('"' :: body) → '"' ∉ body → Answers c
        (.error ⟨.unterminatedString, (c.forward g.length).location,
          (c.forward g.length).lineText⟩) (c.forward c.rest.length)
  | lexeme {g value rest : List Char} {k : Kind} :
      c.rest = g ++ (written k value ++ rest) → IsGap g (written k value ++ rest) →
      Spelling k value → Ends k value rest → Answers c
        (.ok ⟨k, String.ofList value, (c.forward g.length).location⟩)
        (c.forward (g.length + (written k value).length))

/-- **A call does one of these things.** -/
theorem answers (c : Cursor) : c.Answers c.next.1 c.next.2 := by
  generalize hrest : c.rest = text
  cases begins text with
  | finish hg =>
    rw [next_finish hrest hg, ← hrest]
    exact .finish (hrest ▸ hg)
  | openComment hg hbody =>
    rw [next_unclosed hrest hg hbody]
    exact .openComment hrest hg hbody
  | openString hg hquote =>
    rw [next_open hrest hg hquote]
    exact .openString hrest hg hquote
  | lexeme hg hspelling hends =>
    rw [next_lexeme hrest hg hspelling hends, ← forward_add]
    exact .lexeme hrest hg hspelling hends

/-- A call goes forward, but not past the end. -/
theorem next_forward (c : Cursor) : ∃ n ≤ c.rest.length, c.next.2 = c.forward n := by
  have h := c.answers
  generalize c.next.1 = r, c.next.2 = c' at h ⊢
  cases h with
  | finish | openComment | openString => exact ⟨_, Nat.le_refl _, rfl⟩
  | lexeme hrest => exact ⟨_, by simp [hrest, ← Nat.add_assoc], rfl⟩

end Cursor

/-! ## All tokens -/

namespace Scan

variable {m : Nat} {c : Cursor}

theorem upTo_end {t : Token} {after : Cursor} (hnext : c.next = (.ok t, after))
    (ht : t.kind = .endOfInput) : upTo (m + 1) c = ⟨[(t, after)], none, after⟩ := by
  simp only [upTo, hnext, ht, if_true]

theorem upTo_token {t : Token} {after : Cursor} (hnext : c.next = (.ok t, after))
    (ht : t.kind ≠ .endOfInput) :
    upTo (m + 1) c = { upTo m after with reads := (t, after) :: (upTo m after).reads } := by
  simp only [upTo, hnext, ht, if_false]

theorem upTo_error {p : Problem} {after : Cursor} (hnext : c.next = (.error p, after)) :
    upTo (m + 1) c = ⟨[], some p, after⟩ := by
  simp only [upTo, hnext]

/-- **The lexer reads the pieces**, one after the other, and comes to a problem where a string is
not closed. -/
theorem upTo_of_lexes {n : Nat} {text : List Char} {pieces : List Piece} {fault : Option Nat}
    (h : Lexes n text pieces fault) (hrest : c.rest = text) (hoffset : c.offset = n)
    (hm : text.length < m) :
    (upTo m c).tokens.map Token.piece = pieces ∧
      (upTo m c).fault.map (fun p => p.location.map (·.offset)) =
        fault.map (fun k : Nat => some (k : Int)) := by
  induction h generalizing c m with
  | @finish n g hg =>
    obtain ⟨m, rfl⟩ := Nat.exists_eq_succ_of_ne_zero (Nat.ne_zero_of_lt hm)
    rw [upTo_end (Cursor.next_finish hrest hg) rfl]
    refine ⟨?_, rfl⟩
    have hfront : (c.forward g.length).offset = n + g.length := by
      rw [Cursor.forward_offset (by rw [hrest]), hoffset]
    rw [← hfront]
    rfl
  | @unclosed n g body hg hbody =>
    obtain ⟨m, rfl⟩ : ∃ m', m = m' + 2 := ⟨m - 2, by simp at hm; omega⟩
    have hfront : (c.forward c.rest.length).offset = n + (g ++ '/' :: '*' :: body).length := by
      rw [Cursor.forward_offset (Nat.le_refl _), hoffset, hrest]
    have hrest' : (c.forward c.rest.length).rest = [] := by
      rw [Cursor.forward_rest, List.drop_length]
    rw [upTo_token (Cursor.next_unclosed hrest hg hbody) nofun,
      upTo_end (Cursor.next_finish hrest' .nil) rfl]
    refine ⟨?_, rfl⟩
    rw [← hfront]
    rfl
  | @openString n g body hg hquote =>
    obtain ⟨m, rfl⟩ := Nat.exists_eq_succ_of_ne_zero (Nat.ne_zero_of_lt hm)
    have hfront : (c.forward g.length).offset = n + g.length := by
      rw [Cursor.forward_offset (by simp [hrest]), hoffset]
    rw [upTo_error (Cursor.next_open hrest hg hquote), ← hfront]
    exact ⟨rfl, rfl⟩
  | @lexeme n g value rest k pieces fault hg hspelling hends _ ih =>
    obtain ⟨m, rfl⟩ := Nat.exists_eq_succ_of_ne_zero (Nat.ne_zero_of_lt hm)
    have hfront : (c.forward g.length).offset = n + g.length := by
      rw [Cursor.forward_offset (by simp [hrest]), hoffset]
    have hbehind := Cursor.rest_forward_append hrest
    have hoffset' : ((c.forward g.length).forward (written k value).length).offset =
        n + g.length + (written k value).length := by
      rw [Cursor.forward_offset (by simp [hbehind]), hfront]
    have hlength : rest.length < m :=
      Nat.lt_of_lt_of_le (hspelling.length_rest_lt g rest) (Nat.le_of_lt_succ hm)
    obtain ⟨htokens, hfault⟩ := ih (Cursor.rest_forward_append hbehind) hoffset' hlength
    rw [upTo_token (Cursor.next_lexeme hrest hg hspelling hends) hspelling.ne_endOfInput]
    refine ⟨?_, hfault⟩
    rw [← htokens, ← hfront]
    rfl

variable {source file : String} {pieces : List Piece} {fault : Option Nat}

/-- The tokens of a source text are its pieces. -/
theorem ofSource_of_lexes (h : Lexes 0 source.toList pieces fault) (file : String) :
    (ofSource source file).tokens.map Token.piece = pieces ∧
      (ofSource source file).fault.map (fun p => p.location.map (·.offset)) =
        fault.map (fun k : Nat => some (k : Int)) :=
  upTo_of_lexes (c := .start source file) h rfl rfl (Nat.lt_succ_self _)

/-- The lexer reads the pieces of a decomposition. -/
theorem ofSource_of_decomposes (h : Decomposes 0 source.toList pieces) (file : String) :
    (ofSource source file).fault = none ∧
      (ofSource source file).tokens.map Token.piece = pieces := by
  obtain ⟨htokens, hfault⟩ := ofSource_of_lexes h.lexes file
  exact ⟨Option.map_eq_none_iff.1 hfault, htokens⟩

/-- What the lexer reads is a decomposition. -/
theorem exists_decomposes (h : (ofSource source file).fault = none) :
    ∃ pieces, Decomposes 0 source.toList pieces := by
  obtain ⟨pieces, fault, hlexes⟩ := exists_lexes 0 source.toList
  have hfault := (ofSource_of_lexes hlexes file).2
  rw [h] at hfault
  obtain rfl := Option.map_eq_none_iff.1 hfault.symm
  exact ⟨pieces, hlexes.decomposes⟩

theorem result_eq_ok_iff {s : Scan} {tokens : List Token} :
    s.result = .ok tokens ↔ s.fault = none ∧ s.tokens = tokens := by
  unfold result
  cases s.fault with
  | none => simp
  | some p => simp

end Scan

/-- **The tokens of a source text are its only decomposition.** -/
theorem scan_iff_decomposes (source file : String) (pieces : List Piece) :
    Decomposes 0 source.toList pieces ↔
      ∃ tokens, (Scan.ofSource source file).result = .ok tokens ∧
        tokens.map Token.piece = pieces := by
  constructor
  · intro h
    obtain ⟨hfault, htokens⟩ := Scan.ofSource_of_decomposes h file
    exact ⟨_, Scan.result_eq_ok_iff.2 ⟨hfault, rfl⟩, htokens⟩
  · rintro ⟨tokens, hresult, rfl⟩
    obtain ⟨hfault, rfl⟩ := Scan.result_eq_ok_iff.1 hresult
    obtain ⟨pieces, hpieces⟩ := Scan.exists_decomposes hfault
    rw [(Scan.ofSource_of_decomposes hpieces file).2]
    exact hpieces

/-- Marks that overlap: a comment is not closed by its own opening star, a number has one point, and
two equality signs belong together before a third one does. -/
example :
    (Scan.ofSource "x/*/ */1.2.3===!" "").tokens.map (fun t => (t.kind, t.text)) =
      [(.identifier, "x"), (.floatLiteral, "1.2"), (.unknown, "."), (.intLiteral, "3"),
        (.equal, "=="), (.assign, "="), (.unknown, "!"), (.endOfInput, "")] := by
  decide +kernel

end ThreeAddress
