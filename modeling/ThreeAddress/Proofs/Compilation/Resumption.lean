import ThreeAddress.Proofs.Compilation.Rejection
import ThreeAddress.Proofs.Token.Position

/-!
# Reading on behind an error

A session that has rejected a token can be asked for a program again. It goes on from the rejected
token, whatever rule was under way when it was rejected.

* `Token.width`, `Token.EndsAt`: how far a token reaches in the source text.
* `Session.after`: the session after some calls for a program.
* `Session.StandsAt`: the session has a token of the source as its current one, has read the source
  up to the end of that token, and nothing has been lost.
* `Session.Reads.program`: one call leads from a token to a token that is not in front of it.

**Theorem (`resumes_at_rejected`).** After any number of calls a session stands at a token, and the
next call gives what the tokens from there on give by themselves. Behind an error, this is the token
at the place of the error, and behind a program it is the end of input, where all further programs
are empty.

That a step passes whole tokens and stops at the one that it rejects is `program_fits`.
-/

namespace ThreeAddress

open Token

/-! ## Where tokens end -/

namespace Token

/-- The number of characters that a token takes in the source. A comment that is not closed is
reported at the end of the text, where it takes none. -/
def width (t : Token) : Nat :=
  if t.kind = .unknown ∧ t.text = unclosedComment then 0
  else (written t.kind t.text.toList).length

/-- The token ends at the offset. -/
def EndsAt (t : Token) (offset : Nat) : Prop :=
  ∃ l, t.location = some l ∧ (offset : Int) = l.offset + t.width

theorem Spelling.width {k : Kind} {value : List Char} (h : Spelling k value)
    (l : Option Location) :
    Token.width ⟨k, String.ofList value, l⟩ = (written k value).length := by
  unfold Token.width
  rw [if_neg, String.toList_ofList]
  intro hopen
  obtain ⟨rfl, heq⟩ := hopen
  exact h.ne_unclosedComment heq

end Token

/-- **The cursor behind a token** is at the end of it. -/
theorem Cursor.next_endsAt {c after : Cursor} {t : Token} (hnext : c.next = (.ok t, after)) :
    t.EndsAt after.offset := by
  have hanswers := c.answers
  rw [hnext] at hanswers
  cases hanswers with
  | finish => exact ⟨_, rfl, by simp [Token.width, written, Cursor.location]⟩
  | openComment => exact ⟨_, rfl, by simp [Token.width, Cursor.location]⟩
  | @lexeme g value rest k hrest _ hspelling =>
    refine ⟨_, rfl, ?_⟩
    rw [hspelling.width, Cursor.forward_add,
      Cursor.forward_offset (by simp [Cursor.rest_forward_append hrest])]
    rfl

theorem Scan.upTo_endsAt (n : Nat) (c : Cursor) :
    ∀ x ∈ (upTo n c).reads, x.1.EndsAt x.2.offset := by
  induction n generalizing c with
  | zero => exact fun x hx => absurd hx List.not_mem_nil
  | succ n ih =>
    rw [upTo]
    split
    · exact fun x hx => absurd hx List.not_mem_nil
    · next t after hnext =>
      split_ifs
      · exact List.forall_mem_singleton.2 (Cursor.next_endsAt hnext)
      · exact List.forall_mem_cons.2 ⟨Cursor.next_endsAt hnext, ih after⟩

namespace Grammar

/-! ## Sessions -/

namespace Session

/-- The session after a number of calls for a program. -/
def after (s : Session) : Nat → Session
  | 0 => s
  | n + 1 => (s.after n).program.2

/-- The session stands at the `i`-th token: it is the current one, the ones behind it are still to
come, the ones in front of it have been taken, and the source has been read up to the end of it. The
next call gives what the tokens from there on give by themselves. -/
structure StandsAt (s : Session) (tokens : List Token) (lines : List String) (i : Nat) : Prop where
  ahead : s.reader.tokens = tokens.drop i
  made : s.made.map (·.1) = tokens.take (i + 1)
  position : s.reader.current.EndsAt s.position
  next : s.program.1 = ofTokens (tokens.drop i) lines

/-- A session that is under way: what is known of its source text and of its reader. -/
structure Reads (s : Session) (source file : String) (tokens : List Token) (lines : List String)
    (i : Nat) : Prop where
  scan : s.scan = Scan.ofSource source file
  ahead : s.reader.tokens = tokens.drop i
  fault : s.reader.supply.fault = none
  lines : s.reader.lines = lines
  lexical : s.reader.Lexical
  sealed : s.reader.Sealed

variable {s : Session} {source file : String} {tokens : List Token} {lines : List String} {i : Nat}

theorem start_reads (lines : List String)
    (hscan : (Scan.ofSource source file).result = .ok tokens) :
    ∃ s, start source file lines = .ok s ∧ s.Reads source file tokens lines 0 := by
  obtain ⟨hfault, htokens⟩ := Scan.result_eq_ok_iff.1 hscan
  have hend := exists_endOfInput hscan
  obtain ⟨t, rest, rfl⟩ := List.exists_cons_of_ne_nil (List.ne_nil_of_mem hend.choose_spec.1)
  have hsupply : (Scan.ofSource source file).supply = ⟨t :: rest, none⟩ := by
    rw [Scan.supply, htokens, hfault]
  refine ⟨⟨Scan.ofSource source file, ⟨t, ⟨rest, none⟩, lines⟩⟩, ?_, ?_⟩
  · unfold start
    dsimp only
    rw [hsupply]
    rfl
  · refine ⟨rfl, rfl, rfl, rfl, fun u hu => ?_, fun _ => hend⟩
    exact lexical_of_result hscan u ((List.takeWhile_sublist _).mem hu)

/-- The next call gives what the tokens from the current one on give by themselves. -/
theorem Reads.program_eq (h : s.Reads source file tokens lines i) :
    s.program.1 = ofTokens (tokens.drop i) lines := by
  obtain ⟨scan, current, ⟨upcoming, fault⟩, lines'⟩ := s
  obtain ⟨-, hahead, hfault, hlines, -, -⟩ := h
  cases hfault
  cases hlines
  rw [← hahead]
  rfl

theorem getElem?_of_tokens {r : Reader} (h : r.tokens = tokens.drop i) :
    tokens[i]? = some r.current := by
  rw [← List.head?_drop, ← h]
  rfl

/-- A session that is under way stands at its current token. -/
theorem Reads.standsAt (h : s.Reads source file tokens lines i)
    (hscan : (Scan.ofSource source file).result = .ok tokens) : s.StandsAt tokens lines i := by
  obtain ⟨hfault, htokens⟩ := Scan.result_eq_ok_iff.1 hscan
  have hahead : tokens.drop i = s.reader.current :: s.reader.supply.upcoming := h.ahead.symm
  have hreads : s.scan.reads.map (·.1) = tokens := by
    rw [h.scan]
    exact htokens
  have hlength : s.scan.reads.length - i = s.reader.supply.upcoming.length + 1 := by
    have hlength := congrArg List.length hreads
    rw [List.length_map] at hlength
    rw [hlength, ← List.length_drop, hahead, List.length_cons]
  have hi : i < s.scan.reads.length := by omega
  have hmade : s.made = s.scan.reads.take (i + 1) := by
    have htaken : s.scan.reads.length - s.reader.supply.upcoming.length = i + 1 := by omega
    rw [made, htaken]
  -- The last read that has been made is that of the current token.
  have hlast : s.made.getLast? = some s.scan.reads[i] := by
    rw [hmade, List.take_succ_eq_append_getElem hi, List.getLast?_concat]
  have hcurrent : s.scan.reads[i].1 = s.reader.current := by
    have hget := getElem?_of_tokens h.ahead
    rw [← hreads, List.getElem?_map, List.getElem?_eq_getElem hi] at hget
    exact Option.some.inj hget
  have hends : ∀ x ∈ s.scan.reads, x.1.EndsAt x.2.offset := by
    rw [h.scan]
    exact Scan.upTo_endsAt _ _
  have hbroken : s.broken = false := by
    rw [broken, h.scan, hfault]
    rfl
  have hposition : s.position = s.scan.reads[i].2.offset := by
    simp [position, hbroken, hlast]
  refine ⟨h.ahead, ?_, ?_, h.program_eq⟩
  · rw [hmade, List.map_take, hreads]
  · rw [hposition, ← hcurrent]
    exact hends _ (List.getElem_mem hi)

theorem program_of_ok {ss : List Node} {r : Reader} (h : Grammar.program s.reader = .ok ss r) :
    s.program = (.ok ss, { s with reader := r }) := by
  unfold Session.program Session.take run
  rw [h]

theorem program_of_error {p : Problem} {r : Reader} (h : Grammar.program s.reader = .error p r) :
    s.program = (.error p, { s with reader := r }) := by
  unfold Session.program Session.take run
  rw [h]

/-- What has been passed leaves the session under way. -/
theorem Reads.pass {ts : List Token} {r : Reader} (h : s.Reads source file tokens lines i)
    (hm : Passes s.reader ts r) :
    Reads { s with reader := r } source file tokens lines (i + ts.length) := by
  refine ⟨h.scan, ?_, hm.fault.trans h.fault, hm.lines.trans h.lines, hm.lexical h.lexical,
    hm.sealed h.sealed⟩
  show r.tokens = _
  rw [← List.drop_drop, ← h.ahead, hm.tokens, List.drop_left]

/-- **One call for a program** passes some tokens. It stops at the token that it rejects, or at the
end of input. -/
theorem Reads.program (h : s.Reads source file tokens lines i) :
    ∃ j, i ≤ j ∧ s.program.2.Reads source file tokens lines j ∧
      (∀ p, s.program.1 = .error p →
        Misfit p.cause ∧ p.location = s.program.2.reader.current.location) ∧
      ∀ ss, s.program.1 = .ok ss → s.program.2.reader.current.kind = .endOfInput := by
  have hfits := program_fits s.reader h.lexical h.sealed
  have htakes := program_takes s.reader h.lexical
  cases hrun : Grammar.program s.reader with
  | ok ss r =>
    obtain ⟨ts, hm, -⟩ := hfits.of_ok hrun
    obtain ⟨-, -, -, hend⟩ := htakes.of_ok hrun
    rw [program_of_ok hrun]
    refine ⟨i + ts.length, Nat.le_add_right _ _, h.pass hm, fun p hp => ?_, fun _ _ => hend⟩
    cases hp
  | error p r =>
    rw [program_of_error hrun]
    rcases hfits.of_error hrun with ⟨ts, cause, hm, -, hmisfit, rfl⟩ | ⟨hfault, -⟩
    · refine ⟨i + ts.length, Nat.le_add_right _ _, h.pass hm, fun p hp => ?_, nofun⟩
      cases hp
      exact ⟨hmisfit, rfl⟩
    · rw [h.fault] at hfault
      cases hfault

/-- Nothing is read at the end of input. -/
theorem program_of_end (h : s.reader.current.kind = .endOfInput) : s.program = (.ok [], s) := by
  have hrun : Grammar.program s.reader = .ok [] s.reader := by
    show statementsWithin (4 * s.reader.size + 3 + 1) .endOfInput s.reader = _
    rw [statementsWithin]
    exact (bind_of_ok rfl).trans (by rw [if_pos h]; rfl)
  exact program_of_ok hrun

theorem after_of_end {n : Nat} (h : (s.after n).reader.current.kind = .endOfInput) (k : Nat) :
    s.after (n + k) = s.after n := by
  induction k with
  | zero => rfl
  | succ k ih => rw [← Nat.add_assoc, after, ih, program_of_end h]

/-- **Any number of calls** leaves the session under way. -/
theorem Reads.after (h : s.Reads source file tokens lines 0) (n : Nat) :
    ∃ i, (s.after n).Reads source file tokens lines i := by
  induction n with
  | zero => exact ⟨0, h⟩
  | succ n ih =>
    obtain ⟨i, hi⟩ := ih
    obtain ⟨j, -, hj, -⟩ := hi.program
    exact ⟨j, hj⟩

end Session

/-- **A session goes on at the token that it has rejected.** -/
theorem resumes_at_rejected {source file : String} {tokens : List Token} (lines : List String)
    (hscan : (Scan.ofSource source file).result = .ok tokens) :
    ∃ s, Session.start source file lines = .ok s ∧ s.StandsAt tokens lines 0 ∧
      ∀ n, ∃ i j, i ≤ j ∧ (s.after n).StandsAt tokens lines i ∧
        (s.after (n + 1)).StandsAt tokens lines j ∧
        (∀ p, (s.after n).program.1 = .error p →
          Category.syntactic ∈ p.cause.category.lineage ∧
          p.location = (s.after (n + 1)).reader.current.location) ∧
        ∀ ss, (s.after n).program.1 = .ok ss →
          (s.after (n + 1)).reader.current.kind = .endOfInput ∧
          ∀ m > n, (s.after m).program.1 = .ok [] := by
  obtain ⟨s, hstart, hreads⟩ := Session.start_reads lines hscan
  refine ⟨s, hstart, hreads.standsAt hscan, fun n => ?_⟩
  obtain ⟨i, hi⟩ := hreads.after n
  obtain ⟨j, hle, hj, herror, hok⟩ := hi.program
  refine ⟨i, j, hle, hi.standsAt hscan, hj.standsAt hscan, fun p hp => ?_, fun ss hss => ?_⟩
  · obtain ⟨hmisfit, hlocation⟩ := herror p hp
    exact ⟨hmisfit.syntactic, hlocation⟩
  · have hend : (s.after (n + 1)).reader.current.kind = .endOfInput := hok ss hss
    refine ⟨hend, fun m hm => ?_⟩
    obtain ⟨k, rfl⟩ := Nat.exists_eq_add_of_le (Nat.succ_le_of_lt hm)
    rw [Session.after_of_end hend, Session.program_of_end hend]

/-- The tokens of `x y=2;`. -/
def lostAssignment : List Token :=
  [⟨.identifier, "x", some ⟨"", 1, 1, 0⟩⟩, ⟨.identifier, "y", some ⟨"", 1, 3, 2⟩⟩,
    ⟨.assign, "=", some ⟨"", 1, 4, 3⟩⟩, ⟨.intLiteral, "2", some ⟨"", 1, 5, 4⟩⟩,
    ⟨.semicolon, ";", some ⟨"", 1, 6, 5⟩⟩, ⟨.endOfInput, "", some ⟨"", 1, 7, 6⟩⟩]

theorem lostAssignment_resumed :
    (Scan.ofSource "x y=2;" "").result = .ok lostAssignment ∧
    ∃ s, Session.start "x y=2;" "" [] = .ok s ∧
      s.program.1 = .error ⟨.unexpectedToken "IDENTIFIER 'y'" "'='", some ⟨"", 1, 3, 2⟩, none⟩ ∧
      (s.after 1).StandsAt lostAssignment [] 1 ∧
      (s.after 1).program.1 = .ok [.assign "y" (.int 2 (some ⟨"", 1, 5, 4⟩)) none
        (some ⟨"", 1, 3, 2⟩)] ∧
      (s.after 2).reader.current.kind = .endOfInput ∧ (s.after 5).program.1 = .ok [] := by
  have hscan : (Scan.ofSource "x y=2;" "").result = .ok lostAssignment := by decide
  obtain ⟨s, hstart, hzero, hall⟩ := resumes_at_rejected [] hscan
  have hfirst : s.program.1 =
      .error ⟨.unexpectedToken "IDENTIFIER 'y'" "'='", some ⟨"", 1, 3, 2⟩, none⟩ :=
    hzero.next.trans rfl
  obtain ⟨-, j, -, -, hj, herror, -⟩ := hall 0
  obtain rfl : j = 1 := by
    have hget := Session.getElem?_of_tokens hj.ahead
    have hplace : (lostAssignment[j]?).bind Token.location = some ⟨"", 1, 3, 2⟩ := by
      rw [hget]
      exact (herror _ hfirst).2.symm
    have hplaces : ∀ j < 6, (lostAssignment[j]?).bind Token.location = some ⟨"", 1, 3, 2⟩ →
        j = 1 := by decide
    exact hplaces j (List.getElem?_eq_some_iff.1 hget).choose hplace
  obtain ⟨-, -, -, -, -, -, hok⟩ := hall 1
  have hsecond : (s.after 1).program.1 = .ok [.assign "y" (.int 2 (some ⟨"", 1, 5, 4⟩)) none
      (some ⟨"", 1, 3, 2⟩)] := hj.next.trans rfl
  obtain ⟨hend, hempty⟩ := hok _ hsecond
  exact ⟨hscan, s, hstart, hfirst, hj, hsecond, hend, hempty 5 (by decide)⟩

end Grammar

end ThreeAddress
