import ThreeAddress.Proofs.Text.Rows
import ThreeAddress.Proofs.Token.Decomposition

/-!
# Places in a text

The counters of a cursor say where it stands: its line is the number of the row that it stands in,
and its column the place in that row.

* `Cursor.Stands`: the counters are right, given what is in front of the cursor; moving on by a
  character keeps them right.
* `Token.first?`: the first character of a token as it is written.
* `Token.StartsIn`: the token has a place in the text, and its first character stands there.

**Theorem (`Token.StartsIn.row`).** In the row that the place of a token names, the first character
of the token stands in the column that it names. Where nothing is written, the column is the one
behind the row.
-/

namespace ThreeAddress

open Token Text

/-! ## Cursors -/

namespace Cursor

/-- The cursor stands in the text behind some rows that are ended and a part of its own row. -/
structure Stands (c : Cursor) (text done part : List Char) : Prop where
  text : text = done ++ (part ++ c.rest)
  ended : done = [] ∨ ∃ front, done = front ++ ['\n']
  inner : '\n' ∉ part
  lineStart : c.lineStart = part ++ c.rest
  line : c.line = done.count '\n' + 1
  column : c.column = part.length + 1
  offset : c.offset = done.length + part.length

/-- The cursor stands somewhere in the text. -/
def StandsIn (c : Cursor) (text : List Char) : Prop := ∃ done part, c.Stands text done part

variable {c : Cursor} {text done part : List Char}

theorem start_standsIn (source file : String) : (start source file).StandsIn source.toList :=
  ⟨[], [], rfl, .inl rfl, List.not_mem_nil, rfl, rfl, rfl, rfl⟩

/-- **A character further on, the counters are right again.** -/
theorem StandsIn.advance (h : c.StandsIn text) : c.advance.StandsIn text := by
  obtain ⟨file, rest, lineStart, line, column, offset⟩ := c
  obtain ⟨done, part, htext, hended, hinner, hstart, hline, hcolumn, hoffset⟩ := h
  dsimp only at htext hstart hline hcolumn hoffset
  unfold Cursor.advance
  cases rest with
  | nil => exact ⟨done, part, htext, hended, hinner, hstart, hline, hcolumn, hoffset⟩
  | cons head rest =>
    dsimp only
    by_cases hhead : head = '\n'
    · rw [if_pos hhead]
      subst hhead
      refine ⟨done ++ part ++ ['\n'], [], ?_, .inr ⟨_, rfl⟩, List.not_mem_nil, rfl, ?_, rfl, ?_⟩
      · simp [htext]
      · simp [hline, List.count_eq_zero_of_not_mem hinner]
      · simp [hoffset, Nat.add_assoc]
    · rw [if_neg hhead]
      have hnot : '\n' ∉ part ++ [head] :=
        List.not_mem_append hinner fun hmem => hhead (List.mem_singleton.1 hmem).symm
      refine ⟨done, part ++ [head], ?_, hended, hnot, ?_, hline, ?_, ?_⟩
      · simp [htext]
      · simp [hstart]
      · simp [hcolumn]
      · simp [hoffset, Nat.add_assoc]

theorem StandsIn.forward (h : c.StandsIn text) (n : Nat) : (c.forward n).StandsIn text := by
  induction n generalizing c with
  | zero => exact h
  | succ n ih => exact ih h.advance

theorem StandsIn.next (h : c.StandsIn text) : c.next.2.StandsIn text := by
  obtain ⟨n, -, hnext⟩ := c.next_forward
  rw [hnext]
  exact h.forward n

/-- The row that the cursor stands in. -/
theorem Stands.row (h : c.Stands text done part) :
    (rows text)[c.line - 1]? = some (part ++ c.rest.takeWhile (· ≠ '\n')) := by
  rw [h.line, Nat.add_sub_cancel, h.text]
  exact (rows_append h.ended _ 0).trans (rows_zero h.inner _)

end Cursor

/-! ## Tokens -/

namespace Token

/-- The first character of a token as it is written. Nothing is written for the end of input, nor
for a comment that is not closed, which is reported at the end of the text. -/
def first? (t : Token) : Option Char :=
  if t.kind = .unknown ∧ t.text = unclosedComment then none
  else (written t.kind t.text.toList).head?

/-- The token has a place in the text, and its first character stands there. -/
def StartsIn (t : Token) (text : List Char) : Prop :=
  ∃ c : Cursor, c.StandsIn text ∧ t.location = some c.location ∧ c.rest.head? = t.first? ∧
    ∀ a ∈ t.first?, isBlank a = false

end Token

theorem Token.Spelling.ne_unclosedComment {value : List Char} (h : Spelling .unknown value) :
    String.ofList value ≠ unclosedComment := by
  intro heq
  have hlength : value.length = 20 := by
    rw [← String.toList_ofList (l := value), heq]
    rfl
  generalize hk : Kind.unknown = k at h
  cases h with
  | word => exact absurd hk.symm (Kind.ofWord_ne rfl _)
  | int | float | string => cases hk
  | pair | symbol | unknown => cases hlength

theorem Token.Spelling.first? {k : Kind} {value : List Char} (h : Spelling k value)
    (l : Option Location) :
    Token.first? ⟨k, String.ofList value, l⟩ = (written k value).head? := by
  unfold Token.first?
  rw [if_neg, String.toList_ofList]
  rintro ⟨rfl, heq⟩
  exact h.ne_unclosedComment heq

/-- **A token starts where the gap in front of it ends.** -/
theorem Cursor.next_startsIn {c after : Cursor} {t : Token} {text : List Char}
    (h : c.StandsIn text) (hnext : c.next = (.ok t, after)) : t.StartsIn text := by
  have hanswers := c.answers
  rw [hnext] at hanswers
  have hend : (c.forward c.rest.length).rest = [] := by rw [Cursor.forward_rest, List.drop_length]
  cases hanswers with
  | finish => exact ⟨_, h.forward _, rfl, by rw [hend]; rfl, nofun⟩
  | openComment => exact ⟨_, h.forward _, rfl, by rw [hend]; rfl, nofun⟩
  | @lexeme g value rest k hrest hg hspelling hends =>
    have hfront := Cursor.rest_forward_append hrest
    obtain ⟨head, tail, hwritten⟩ := List.exists_cons_of_ne_nil hspelling.written_ne_nil
    have hblank : isBlank head = false := by
      have hgap := gap_of_ends hspelling hends
      rw [hwritten, List.cons_append] at hgap
      exact isBlank_of_gap_eq hgap
    refine ⟨_, h.forward _, rfl, ?_, ?_⟩
    · rw [hfront, hspelling.first?, hwritten]
      rfl
    · rw [hspelling.first?, hwritten]
      rintro _ ⟨⟩
      exact hblank

/-- The tokens that are read from a place in the text start in it. -/
theorem Scan.upTo_startsIn {text : List Char} (n : Nat) {c : Cursor} (h : c.StandsIn text) :
    ∀ t ∈ (upTo n c).tokens, t.StartsIn text := by
  induction n generalizing c with
  | zero => exact fun t ht => absurd ht List.not_mem_nil
  | succ n ih =>
    have hafter := h.next
    rw [upTo]
    split
    · exact fun t ht => absurd ht List.not_mem_nil
    · next t after hnext =>
      rw [hnext] at hafter
      split_ifs
      · exact List.forall_mem_singleton.2 (Cursor.next_startsIn h hnext)
      · exact List.forall_mem_cons.2 ⟨Cursor.next_startsIn h hnext, ih hafter⟩

/-- No token starts with a blank. -/
theorem Token.StartsIn.isBlank_eq {t : Token} {text : List Char} {a : Char}
    (h : t.StartsIn text) (ha : t.first? = some a) : isBlank a = false := by
  obtain ⟨_, -, -, -, hblank⟩ := h
  exact hblank a ha

/-- **A token stands where its place says**: in the row of its line, at its column. -/
theorem Token.StartsIn.row {t : Token} {text : List Char} (h : t.StartsIn text) :
    ∃ l row, t.location = some l ∧ 0 < l.line ∧ 0 < l.column ∧
      (rows text)[(l.line - 1).toNat]? = some row ∧
      row[(l.column - 1).toNat]? = t.first? ∧
      (t.first? = none → l.column = row.length + 1) := by
  obtain ⟨c, ⟨done, part, hc⟩, hlocation, hfirst, hblank⟩ := h
  have hline : ((c.location.line - 1).toNat : Nat) = c.line - 1 := by
    show ((c.line : Int) - 1).toNat = c.line - 1
    omega
  have hcolumn : ((c.location.column - 1).toNat : Nat) = part.length := by
    show ((c.column : Int) - 1).toNat = part.length
    rw [hc.column]
    omega
  refine ⟨c.location, _, hlocation, ?_, ?_, hline ▸ hc.row, ?_, fun hnone => ?_⟩
  · show (0 : Int) < (c.line : Nat)
    rw [hc.line]
    omega
  · show (0 : Int) < (c.column : Nat)
    rw [hc.column]
    omega
  · rw [hcolumn, List.getElem?_append_right (Nat.le_refl _), Nat.sub_self, ← hfirst]
    cases hrest : c.rest with
    | nil => rfl
    | cons head tail =>
      -- The row goes on, because a newline is blank.
      rw [hrest] at hfirst
      have hne : head ≠ '\n' := by
        rintro rfl
        cases hblank _ hfirst.symm
      simp [hne]
  · rw [hnone, List.head?_eq_none_iff] at hfirst
    rw [hfirst]
    show ((c.column : Nat) : Int) = _
    rw [hc.column]
    simp

end ThreeAddress
