import Mathlib.Data.Nat.Find
import ThreeAddress.Proofs.Token.Calls

/-!
# The place of an offset

The place of a token is three counters that are kept while reading. Here it is a function of the
text and an offset: count the newlines in front of it, and go back to the last one.

* `Text.rowStart`: the offset behind the last newline in front of an offset.
* `Location.ofOffset`: the place of an offset.
* `Token.PlacedIn`, `Token.WrittenAt`: the token has the place of an offset, and is written there.
* `Cursor.Exact`: the cursor has the place of its offset, and the row that holds it at hand.
* `Problem.OpensAt`: the problem of a string that is opened at an offset and not closed.

**Theorem (`places_exact`).** A cursor is exact behind any calls, each token that they give has the
place of an offset, and a string that is not closed is reported at its opening quote, with the row
that the quote stands in.

The row is told in front of the string, so rows that the string takes do not matter.
-/

namespace ThreeAddress

open Token Text

/-- The offset behind the last newline in front of an offset; zero where there is none. -/
def Text.rowStart (text : List Char) (offset : Nat) : Nat :=
  Nat.findGreatest (fun i => text[i - 1]? = some '\n') offset

/-- The row that holds an offset starts behind the rows that are ended in front of it. -/
theorem Text.rowStart_append {done part : List Char}
    (hended : done = [] ∨ ∃ front, done = front ++ ['\n']) (hpart : '\n' ∉ part)
    (rest : List Char) :
    rowStart (done ++ (part ++ rest)) (done.length + part.length) = done.length := by
  rw [rowStart, Nat.findGreatest_eq_iff]
  refine ⟨Nat.le_add_right _ _, fun hne => ?_, fun i hlt hle hnewline => hpart ?_⟩
  · obtain rfl | ⟨front, rfl⟩ := hended
    · exact absurd rfl hne
    · simp
  · have hinner : i - 1 - done.length < part.length := by omega
    rw [List.getElem?_append_right (by omega), List.getElem?_append_left hinner] at hnewline
    exact List.mem_of_getElem? hnewline

/-- The place of an offset in a text. -/
def Location.ofOffset (file : String) (text : List Char) (offset : Nat) : Location :=
  ⟨file, ((text.take offset).count '\n' + 1 : Nat), (offset - rowStart text offset + 1 : Nat),
    offset⟩

/-- The token has the place of an offset in the text. -/
def Token.PlacedIn (t : Token) (file : String) (text : List Char) : Prop :=
  ∃ k ≤ text.length, t.location = some (.ofOffset file text k)

/-- The token has the place of an offset in the text, and it is written there. -/
structure Token.WrittenAt (t : Token) (file : String) (text : List Char) (offset : Nat) :
    Prop where
  location : t.location = some (.ofOffset file text offset)
  written : written t.kind t.text.toList <+: text.drop offset

/-- The problem is that a quote at an offset opens a string and no other quote follows. It quotes
the row that the quote stands in. -/
structure Problem.OpensAt (p : Problem) (file : String) (text : List Char) (offset : Nat) :
    Prop where
  cause : p.cause = .unterminatedString
  location : p.location = some (.ofOffset file text offset)
  line : p.line.map String.toList = (rows text)[(text.take offset).count '\n']?
  quote : ∃ body, text.drop offset = '"' :: body ∧ '"' ∉ body

/-! ## Cursors -/

namespace Cursor

variable {c : Cursor} {file : String} {text : List Char}

/-- The cursor has the place of its offset, and the row at hand that holds it. -/
structure Exact (c : Cursor) (file : String) (text : List Char) : Prop where
  within : c.offset ≤ text.length
  rest : c.rest = text.drop c.offset
  location : c.location = .ofOffset file text c.offset
  lineText : (rows text)[(text.take c.offset).count '\n']? = some c.lineText.toList

theorem advance_file (c : Cursor) : c.advance.file = c.file := by
  unfold advance
  split
  · rfl
  · split_ifs <;> rfl

theorem forward_file (c : Cursor) (n : Nat) : (c.forward n).file = c.file := by
  induction n generalizing c with
  | zero => rfl
  | succ n ih => rw [forward, ih, advance_file]

theorem next_file (c : Cursor) : c.next.2.file = c.file := by
  obtain ⟨n, -, hnext⟩ := c.next_forward
  rw [hnext, forward_file]

/-- **The counters are exact.** -/
theorem StandsIn.exact (h : c.StandsIn text) : c.Exact c.file text := by
  obtain ⟨done, part, h⟩ := h
  have htake : text.take c.offset = done ++ part := by
    rw [h.text, h.offset, ← List.append_assoc, ← List.length_append, List.take_left]
  have hcount : (text.take c.offset).count '\n' = done.count '\n' := by
    rw [htake, List.count_append, List.count_eq_zero_of_not_mem h.inner, Nat.add_zero]
  have hstart : rowStart text c.offset = done.length := by
    rw [h.text, h.offset]
    exact rowStart_append h.ended h.inner c.rest
  refine ⟨?_, ?_, ?_, ?_⟩
  · rw [h.text, h.offset]
    simp
  · rw [h.text, h.offset, ← List.append_assoc, ← List.length_append, List.drop_left]
  · rw [Location.ofOffset, hcount, hstart, Cursor.location, h.line, h.column, h.offset,
      Nat.add_sub_cancel_left]
  · have hrow := h.row
    rw [h.line, Nat.add_sub_cancel] at hrow
    have hpart : ∀ a ∈ part, decide (a ≠ '\n') = true :=
      fun a ha => decide_eq_true fun heq => h.inner (heq ▸ ha)
    rw [hcount, hrow, Cursor.lineText, String.toList_ofList, h.lineStart,
      List.takeWhile_append_of_pos hpart]

/-- A cursor some characters on, but not past the end, has the place of its offset. -/
theorem StandsIn.location_forward (h : c.StandsIn text) {n : Nat} (hn : n ≤ c.rest.length) :
    c.offset + n ≤ text.length ∧
      (c.forward n).location = .ofOffset c.file text (c.offset + n) := by
  have hexact := (h.forward n).exact
  rw [forward_file] at hexact
  rw [← forward_offset hn]
  exact ⟨hexact.within, hexact.location⟩

theorem after_standsIn (h : c.StandsIn text) (n : Nat) : (c.after n).StandsIn text := by
  induction n with
  | zero => exact h
  | succ n ih => exact ih.next

theorem after_file (c : Cursor) (n : Nat) : (c.after n).file = c.file := by
  induction n with
  | zero => rfl
  | succ n ih => rw [after, next_file, ih]

/-- A call gives a token that has a place in the text. -/
theorem StandsIn.placedIn (h : c.StandsIn text) {t : Token} (hcall : c.next.1 = .ok t) :
    t.PlacedIn c.file text := by
  have hanswers := c.answers
  generalize c.next.1 = r, c.next.2 = c' at hcall hanswers
  cases hanswers with
  | finish | openComment =>
    cases hcall
    obtain ⟨hk, hlocation⟩ := h.location_forward (Nat.le_refl _)
    exact ⟨_, hk, congrArg some hlocation⟩
  | openString => cases hcall
  | lexeme hrest =>
    cases hcall
    obtain ⟨hk, hlocation⟩ := h.location_forward (hrest ▸ List.length_append ▸ Nat.le_add_right _ _)
    exact ⟨_, hk, congrArg some hlocation⟩

/-- A token is written at its place. Only a comment that is not closed has another one. -/
theorem StandsIn.writtenAt (h : c.StandsIn text) {t : Token} (hcall : c.next.1 = .ok t)
    (ht : t.word ≠ (.unknown, unclosedComment)) : ∃ k, t.WrittenAt c.file text k := by
  have hanswers := c.answers
  generalize c.next.1 = r, c.next.2 = c' at hcall hanswers
  cases hanswers with
  | finish =>
    cases hcall
    obtain ⟨-, hlocation⟩ := h.location_forward (Nat.le_refl _)
    exact ⟨_, congrArg some hlocation, List.nil_prefix⟩
  | openComment =>
    cases hcall
    exact absurd rfl ht
  | openString => cases hcall
  | @lexeme g value rest k hrest =>
    cases hcall
    have hexact := (h.forward g.length).exact
    rw [forward_file] at hexact
    refine ⟨_, congrArg some hexact.location, ?_⟩
    rw [← hexact.rest, rest_forward_append hrest, String.toList_ofList]
    exact List.prefix_append _ _

/-- **A call that gives a problem** has come to a quote behind the next gap. -/
theorem StandsIn.opensAt (h : c.StandsIn text) {p : Problem} (hcall : c.next.1 = .error p) :
    ∃ g body, c.rest = g ++ '"' :: body ∧ IsGap g ('"' :: body) ∧
      p.OpensAt c.file text (c.offset + g.length) := by
  have hanswers := c.answers
  generalize c.next.1 = r, c.next.2 = c' at hcall hanswers
  cases hanswers with
  | finish | openComment | lexeme => cases hcall
  | @openString g body hrest hg hquote =>
    cases hcall
    have hoffset : (c.forward g.length).offset = c.offset + g.length :=
      forward_offset (by simp [hrest])
    have hexact := (h.forward g.length).exact
    rw [forward_file] at hexact
    refine ⟨g, body, hrest, hg, ?_⟩
    rw [← hoffset]
    exact ⟨rfl, congrArg some hexact.location, hexact.lineText.symm,
      body, hexact.rest.symm.trans (rest_forward_append hrest), hquote⟩

end Cursor

/-- The tokens of a source text are written at their places. -/
theorem Scan.ofSource_writtenAt {source file : String} {t : Token}
    (ht : t ∈ (Scan.ofSource source file).tokens) (hword : t.word ≠ (.unknown, unclosedComment)) :
    ∃ k, t.WrittenAt file source.toList k := by
  obtain ⟨n, hn⟩ := List.mem_iff_getElem?.1 ht
  have hcall := (ofSource_yields source file).call_eq.1 n t hn
  have hstands := Cursor.after_standsIn (Cursor.start_standsIn source file) n
  have hwritten := hstands.writtenAt hcall hword
  rwa [Cursor.after_file] at hwritten

/-- **Every place is exact**: that of the cursor behind any calls, that of each token, and that of
a string that is not closed. -/
theorem places_exact (source file : String) :
    (∀ n, ((Cursor.start source file).after n).Exact file source.toList) ∧
      (∀ n t, (Cursor.start source file).call n = .ok t → t.PlacedIn file source.toList) ∧
      (∀ n p, (Cursor.start source file).call n = .error p →
        ∃ g body, ((Cursor.start source file).after n).rest = g ++ '"' :: body ∧
          IsGap g ('"' :: body) ∧
          p.OpensAt file source.toList (((Cursor.start source file).after n).offset + g.length)) ∧
      (∀ t ∈ (Scan.ofSource source file).tokens, t.PlacedIn file source.toList) ∧
      ∀ p, (Scan.ofSource source file).fault = some p →
        ∃ k, p.OpensAt file source.toList k := by
  have hstands : ∀ n, ((Cursor.start source file).after n).StandsIn source.toList :=
    Cursor.after_standsIn (Cursor.start_standsIn source file)
  have hfile : ∀ n, ((Cursor.start source file).after n).file = file :=
    Cursor.after_file (Cursor.start source file)
  have htoken : ∀ n t, (Cursor.start source file).call n = .ok t →
      t.PlacedIn file source.toList :=
    fun n t hcall => hfile n ▸ (hstands n).placedIn hcall
  have hproblem := fun n p (hcall : (Cursor.start source file).call n = .error p) =>
    (hstands n).opensAt hcall
  simp only [hfile] at hproblem
  obtain ⟨htokens, hfault⟩ := (Scan.ofSource_yields source file).call_eq
  refine ⟨fun n => ?_, htoken, hproblem, fun t ht => ?_, fun p hp => ?_⟩
  · have hexact := (hstands n).exact
    rwa [hfile] at hexact
  · obtain ⟨n, hn⟩ := List.mem_iff_getElem?.1 ht
    exact htoken n t (htokens n t hn)
  · obtain ⟨g, body, -, -, hopens⟩ := hproblem _ p (hfault p hp)
    exact ⟨_, hopens⟩

/-- A string over two rows that is not closed, behind a comment over two rows: the second call
comes to it, and so does the reading of all tokens. -/
theorem openString_placed :
    (Token.PlacedIn ⟨.identifier, "x", some ⟨"f", 2, 4, 8⟩⟩ "f" "/* a\n*/ x \"b\nc".toList) ∧
      (∃ g body, ((Cursor.start "/* a\n*/ x \"b\nc" "f").after 1).rest = g ++ '"' :: body ∧
        IsGap g ('"' :: body) ∧
        (⟨.unterminatedString, some ⟨"f", 2, 6, 10⟩, some "*/ x \"b"⟩ : Problem).OpensAt "f"
          "/* a\n*/ x \"b\nc".toList
          (((Cursor.start "/* a\n*/ x \"b\nc" "f").after 1).offset + g.length)) ∧
      ∃ k, (⟨.unterminatedString, some ⟨"f", 2, 6, 10⟩, some "*/ x \"b"⟩ : Problem).OpensAt "f"
        "/* a\n*/ x \"b\nc".toList k := by
  obtain ⟨-, hcall, hproblem, -, hfault⟩ := places_exact "/* a\n*/ x \"b\nc" "f"
  exact ⟨hcall 0 _ (by decide +kernel), hproblem 1 _ (by decide +kernel),
    hfault _ (by decide +kernel)⟩

end ThreeAddress
