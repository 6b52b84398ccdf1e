import ThreeAddress.Proofs.Token.Position
import ThreeAddress.Proofs.Token.Printing

/-!
# Calls for tokens

A cursor can be asked for a token any number of times, behind a problem and behind the end of input,
too.

* `Cursor.after`, `Cursor.call`: the cursor behind some calls, and what the next call gives.
* `Cursor.Yields`: the calls that read all tokens, up to the first one that gives the end of input
  or a problem.
* `Cursor.Progresses`: what calls do to a cursor, and when there is nothing left for them to do.

**Theorem (`calls_progress`).** Calls go forward through a text and come to rest at its end, and all
its tokens are read in at most one call more than it has characters.

A call that does not go forward is one behind the last lexeme and the last gap. It gives the end of
input and leaves the cursor where it is (`Cursor.call_of_end`), and so do all further ones.
-/

namespace ThreeAddress

open Token

namespace Cursor

variable {c : Cursor} {t : Token} {p : Problem} {m n : Nat}

/-! ## One call -/

/-- A call that finds a token or a problem leaves less text than there was. -/
theorem length_next_lt (h : ∀ t, c.next.1 = .ok t → t.kind ≠ .endOfInput) :
    c.next.2.rest.length < c.rest.length := by
  have hanswers := c.answers
  generalize c.next.1 = r, c.next.2 = c' at h hanswers ⊢
  cases hanswers with
  | finish => exact absurd rfl (h _ rfl)
  | openComment hrest | openString hrest =>
    rw [forward_rest, List.drop_length, hrest]
    exact List.length_pos_of_ne_nil (List.append_ne_nil_of_right_ne_nil _ (List.cons_ne_nil _ _))
  | @lexeme g value rest k hrest _ hspelling =>
    rw [forward_rest, hrest, ← List.append_assoc, ← List.length_append, List.drop_left,
      List.append_assoc]
    exact hspelling.length_rest_lt g rest

/-- Only a lexeme leaves text behind it. -/
theorem next_rest_eq_nil
    (h : ∀ t, c.next.1 = .ok t → ¬ t.WellFormed) : c.next.2.rest = [] := by
  have hanswers := c.answers
  generalize c.next.1 = r, c.next.2 = c' at h hanswers ⊢
  cases hanswers with
  | finish | openComment | openString => rw [forward_rest, List.drop_length]
  | @lexeme _ value _ k _ _ hspelling =>
    refine absurd ?_ (h _ rfl)
    rwa [WellFormed, String.toList_ofList]

/-- At the end of the text, a call gives the end of input and changes nothing. -/
theorem next_of_end (h : c.rest = []) : c.next = (.ok ⟨.endOfInput, "", c.location⟩, c) :=
  next_finish h .nil

/-- What is in front of the cursor and what is behind it make up the text. -/
theorem next_size (c : Cursor) :
    c.next.2.offset + c.next.2.rest.length = c.offset + c.rest.length := by
  obtain ⟨n, hn, hnext⟩ := c.next_forward
  rw [hnext, forward_offset hn, forward_rest, List.length_drop]
  omega

/-! ## Many calls -/

/-- The cursor behind some calls, whatever they have given. -/
def after (c : Cursor) : Nat → Cursor
  | 0 => c
  | n + 1 => (c.after n).next.2

/-- What a call gives that is made behind some others. -/
def call (c : Cursor) (n : Nat) : Except Problem Token := (c.after n).next.1

theorem after_add (c : Cursor) (m n : Nat) : c.after (m + n) = (c.after m).after n := by
  induction n with
  | zero => rfl
  | succ n ih => rw [← Nat.add_assoc, after, ih, after]

theorem after_succ (c : Cursor) (n : Nat) : c.after (n + 1) = c.next.2.after n := by
  rw [Nat.add_comm, after_add]
  rfl

theorem call_succ (c : Cursor) (n : Nat) : c.call (n + 1) = c.next.2.call n := by
  rw [call, after_succ, call]

theorem after_size (c : Cursor) (n : Nat) :
    (c.after n).offset + (c.after n).rest.length = c.offset + c.rest.length := by
  induction n with
  | zero => rfl
  | succ n ih => rw [after, next_size, ih]

/-- The offset tells how much text is left. -/
theorem offset_eq_iff : (c.after n).offset = c.offset + c.rest.length ↔ (c.after n).rest = [] := by
  rw [← List.length_eq_zero_iff, ← c.after_size n]
  omega

/-- **At the end of the text, all further calls** give the same end of input. -/
theorem call_of_end (h : (c.after m).rest = []) (hmn : m ≤ n) :
    c.after n = c.after m ∧ c.call n = .ok ⟨.endOfInput, "", (c.after m).location⟩ := by
  obtain ⟨k, rfl⟩ := Nat.exists_eq_add_of_le hmn
  have hafter : c.after (m + k) = c.after m := by
    induction k with
    | zero => rfl
    | succ k ih => rw [← Nat.add_assoc, after, ih (Nat.le_add_right _ _), next_of_end h]
  refine ⟨hafter, ?_⟩
  rw [call, hafter, next_of_end h]

/-- The end of input is given at the end of the text. -/
theorem next_of_endOfInput (h : c.next.1 = .ok t) (ht : t.kind = .endOfInput) :
    c.next.2.rest = [] ∧ t = ⟨.endOfInput, "", c.next.2.location⟩ := by
  have hanswers := c.answers
  generalize c.next.1 = r, c.next.2 = c' at h hanswers ⊢
  cases hanswers with
  | finish =>
    cases h
    exact ⟨by rw [forward_rest, List.drop_length], rfl⟩
  | openComment =>
    cases h
    cases ht
  | openString => cases h
  | lexeme _ _ hspelling =>
    cases h
    exact absurd ht hspelling.ne_endOfInput

/-! ## Progress -/

/-- How calls make their way from a cursor to the end of a text of the given length. -/
structure Progresses (c : Cursor) (size : Nat) : Prop where
  /-- No call goes back, and none goes past the end. -/
  forward (n : Nat) :
    (c.after n).offset ≤ (c.after (n + 1)).offset ∧ (c.after (n + 1)).offset ≤ size
  /-- Only the end of input can be given without going on. -/
  strict (n : Nat) : (∀ t, c.call n = .ok t → t.kind ≠ .endOfInput) →
    (c.after n).offset < (c.after (n + 1)).offset
  /-- There is at most one problem, and it leaves no text behind it. -/
  fault {n : Nat} {p : Problem} : c.call n = .error p →
    (c.after (n + 1)).offset = size ∧ ∀ m q, c.call m = .error q → m = n
  /-- At most one comment is not closed; only the end of input is behind it. -/
  comment {n : Nat} {t : Token} : c.call n = .ok t → t.word = (.unknown, unclosedComment) →
    (c.after (n + 1)).offset = size ∧
      (∀ m > n, ∃ u, c.call m = .ok u ∧ u.kind = .endOfInput) ∧
      ∀ m u, c.call m = .ok u → u.word = (.unknown, unclosedComment) → m = n
  /-- The end of input is given again and again. -/
  stable {n : Nat} {t : Token} : c.call n = .ok t → t.kind = .endOfInput →
    ∀ m ≥ n, c.after (m + 1) = c.after (n + 1) ∧ c.call m = .ok t

/-- Only one call leaves no text behind it and gives something else than the end of input. -/
theorem eq_of_rest_eq_nil (hm : (c.after (m + 1)).rest = []) (hn : (c.after (n + 1)).rest = [])
    (hm' : ∀ t, c.call m = .ok t → t.kind ≠ .endOfInput)
    (hn' : ∀ t, c.call n = .ok t → t.kind ≠ .endOfInput) : m = n := by
  rcases Nat.lt_trichotomy m n with hlt | heq | hlt
  · exact absurd rfl (hn' _ (call_of_end hm hlt).2)
  · exact heq
  · exact absurd rfl (hm' _ (call_of_end hn hlt).2)

theorem rest_of_error (h : c.call n = .error p) : (c.after (n + 1)).rest = [] :=
  next_rest_eq_nil fun _ ht => nomatch h.symm.trans ht

theorem rest_of_comment (h : c.call n = .ok t) (ht : t.word = (.unknown, unclosedComment)) :
    (c.after (n + 1)).rest = [] := by
  refine next_rest_eq_nil fun u hu hspelling => ?_
  cases h.symm.trans hu
  obtain ⟨k, text, l⟩ := t
  cases ht
  exact Spelling.ne_unclosedComment hspelling String.ofList_toList

/-- **Calls go forward and come to rest.** -/
theorem progresses (c : Cursor) : c.Progresses (c.offset + c.rest.length) where
  forward n := by
    obtain ⟨k, hk, hnext⟩ := (c.after n).next_forward
    have hsize := c.after_size n
    rw [after, hnext, forward_offset hk]
    omega
  strict n h := by
    have hlt : (c.after n).next.2.rest.length < (c.after n).rest.length := length_next_lt h
    have hsize := (c.after n).next_size
    rw [after]
    omega
  fault {n p} h := by
    have hrest := rest_of_error h
    refine ⟨offset_eq_iff.2 hrest, fun m q hq => ?_⟩
    refine eq_of_rest_eq_nil (rest_of_error hq) hrest ?_ ?_
    · exact fun u hu => nomatch hq.symm.trans hu
    · exact fun u hu => nomatch h.symm.trans hu
  comment {n t} h ht := by
    have hrest := rest_of_comment h ht
    have hkind : ∀ {u : Token}, u.word = (.unknown, unclosedComment) → u.kind ≠ .endOfInput :=
      fun hword hend => nomatch (congrArg Prod.fst hword).symm.trans hend
    refine ⟨offset_eq_iff.2 hrest, fun m hm => ?_, fun m u hu hword => ?_⟩
    · exact ⟨_, (call_of_end hrest hm).2, rfl⟩
    · refine eq_of_rest_eq_nil (rest_of_comment hu hword) hrest ?_ ?_
      · intro v hv
        cases hu.symm.trans hv
        exact hkind hword
      · intro v hv
        cases h.symm.trans hv
        exact hkind ht
  stable {n t} h ht m hm := by
    obtain ⟨hend, heq⟩ := next_of_endOfInput h ht
    have hrest : (c.after (n + 1)).rest = [] := hend
    refine ⟨(call_of_end hrest (Nat.succ_le_succ hm)).1, ?_⟩
    rcases Nat.eq_or_lt_of_le hm with rfl | hlt
    · exact h
    · rw [(call_of_end hrest hlt).2, heq]
      rfl

/-! ## All tokens -/

/-- Reading goes on from the cursor up to the first call that gives the end of input or a problem.
These are the tokens, and the problem. -/
inductive Yields : Cursor → List Token → Option Problem → Prop
  | finish {c : Cursor} {t : Token} :
      c.next.1 = .ok t → t.kind = .endOfInput → Yields c [t] none
  | fault {c : Cursor} {p : Problem} : c.next.1 = .error p → Yields c [] (some p)
  | token {c : Cursor} {t : Token} {ts : List Token} {fault : Option Problem} :
      c.next.1 = .ok t → t.kind ≠ .endOfInput → Yields c.next.2 ts fault → Yields c (t :: ts) fault

namespace Yields

variable {ts ts' : List Token} {fault fault' : Option Problem}

/-- **Every token but the last** takes at least one character. -/
theorem length_le (h : c.Yields ts fault) : ts.length ≤ c.rest.length + 1 := by
  induction h with
  | finish | fault => exact Nat.le_add_left _ _
  | token hcall ht _ ih =>
    have hlt := length_next_lt (fun u hu => by
      cases hcall.symm.trans hu
      exact ht)
    rw [List.length_cons]
    omega

/-- The tokens are what the calls give, in order, and the problem is what the next one gives. -/
theorem call_eq (h : c.Yields ts fault) :
    (∀ n t, ts[n]? = some t → c.call n = .ok t) ∧
      ∀ p, fault = some p → c.call ts.length = .error p := by
  induction h with
  | finish hcall =>
    refine ⟨fun n t ht => ?_, fun p hp => absurd hp (Option.some_ne_none p).symm⟩
    cases n with
    | zero =>
      cases ht
      exact hcall
    | succ n => exact absurd ht (Option.some_ne_none t).symm
  | fault hcall =>
    refine ⟨fun n t ht => absurd ht (Option.some_ne_none t).symm, fun p hp => ?_⟩
    cases hp
    exact hcall
  | token hcall _ _ ih =>
    refine ⟨fun n t ht => ?_, fun p hp => ?_⟩
    · cases n with
      | zero =>
        cases ht
        exact hcall
      | succ n => rw [call_succ, ih.1 n t ht]
    · rw [List.length_cons, call_succ, ih.2 p hp]

end Yields

end Cursor

/-- Reading all tokens makes the calls that there are to make. -/
theorem Scan.upTo_yields {n : Nat} {c : Cursor} (h : c.rest.length < n) :
    c.Yields (upTo n c).tokens (upTo n c).fault := by
  induction n generalizing c with
  | zero => exact absurd h (Nat.not_lt_zero _)
  | succ n ih =>
    rw [upTo]
    split
    · next p after hnext => exact .fault (by rw [hnext])
    · next t after hnext =>
      split_ifs with ht
      · exact .finish (by rw [hnext]) ht
      · have hcall : c.next.1 = .ok t := by rw [hnext]
        have hlt := Cursor.length_next_lt (fun u hu => by
          cases hcall.symm.trans hu
          exact ht)
        rw [hnext] at hlt
        have hmore := ih (Nat.lt_of_lt_of_le hlt (Nat.le_of_lt_succ h))
        exact .token hcall ht (by rw [hnext]; exact hmore)

theorem Scan.ofSource_yields (source file : String) :
    (Cursor.start source file).Yields (ofSource source file).tokens (ofSource source file).fault :=
  upTo_yields (Nat.lt_succ_self _)

/-- **Reading makes progress and comes to an end.** -/
theorem calls_progress (source file : String) :
    (Cursor.start source file).Progresses source.length ∧
      (Cursor.start source file).Yields (Scan.ofSource source file).tokens
        (Scan.ofSource source file).fault ∧
      (Scan.ofSource source file).tokens.length ≤ source.length + 1 := by
  have hlength : (Cursor.start source file).rest.length = source.length := String.length_toList
  have hyields := Scan.ofSource_yields source file
  have hprogresses := (Cursor.start source file).progresses
  rw [hlength, show (Cursor.start source file).offset = 0 from rfl, Nat.zero_add] at hprogresses
  exact ⟨hprogresses, hyields, hlength ▸ hyields.length_le⟩

/-- Where every character is a token, there is one token more than characters. -/
example : (Scan.ofSource ";;" "").tokens.length = 3 := by decide +kernel

end ThreeAddress
