import Mathlib.Data.List.Infix
import ThreeAddress.Proofs.Token.Spelling

/-!
# Gaps

What a gap is, apart from how it is found: a sequence of blanks and comments. Whether a line comment
ends depends on the text behind the gap, so a gap is one in front of a text.

* `IsGap`: the gaps in front of a text.
* `IsGap.gap_append`: the lexer takes any gap that stands at the front.
* `front`: every text is a gap and a text without a gap at its front, or a gap and a comment that is
  not closed.
-/

namespace ThreeAddress.Token

open Text

/-! ## Blanks and comments -/

/-- The text does not have the mark that closes a block comment. -/
def Unclosed (cs : List Char) : Prop := ¬ ['*', '/'] <:+: cs

/-- The first text is a gap in front of the second one. A line comment goes on to the next newline
or to the end of both texts, and a block comment to the first mark behind its opening mark. -/
inductive IsGap : List Char → List Char → Prop
  | nil {behind : List Char} : IsGap [] behind
  | blank {c : Char} {gap behind : List Char} :
      isBlank c = true → IsGap gap behind → IsGap (c :: gap) behind
  | line {body gap behind : List Char} :
      '\n' ∉ body → (∀ c ∈ (gap ++ behind).head?, c = '\n') → IsGap gap behind →
      IsGap ('/' :: '/' :: (body ++ gap)) behind
  | block {body gap behind : List Char} :
      Unclosed (body ++ ['*']) → IsGap gap behind →
      IsGap ('/' :: '*' :: (body ++ '*' :: '/' :: gap)) behind

theorem Unclosed.of_cons {c : Char} {cs : List Char} (h : Unclosed (c :: cs)) : Unclosed cs :=
  fun hmark => h (List.infix_cons hmark)

/-- A text gets no mark by a character that does not start one. -/
theorem Unclosed.cons {c : Char} {cs : List Char} (h : Unclosed cs)
    (hc : ∀ rest, c = '*' → cs = '/' :: rest → False) : Unclosed (c :: cs) := by
  intro hmark
  rcases List.infix_cons_iff.1 hmark with hstart | hinside
  · obtain ⟨rest, hrest⟩ := hstart
    injection hrest with hstar hslash
    exact hc rest hstar.symm hslash.symm
  · exact h hinside

/-! ## The length of a gap -/

attribute [grind =] gap

@[simp] theorem Gap.after_zero (g : Gap) : g.after 0 = g := by
  rw [Gap.after, Nat.zero_add]

@[simp] theorem Gap.after_after (m n : Nat) (g : Gap) : (g.after n).after m = g.after (m + n) := by
  rw [Gap.after, Gap.after, Gap.after, Nat.add_assoc]

theorem gap_blank {c : Char} {cs : List Char} (h : isBlank c = true) :
    gap .plain (c :: cs) = (gap .plain cs).after 1 := by
  have hslash : c ≠ '/' := by
    rintro rfl
    exact absurd h (by decide)
  rw [gap, if_pos h]
  · exact fun _ hc => absurd hc hslash
  · exact fun _ hc => absurd hc hslash

theorem gap_line_append {body rest : List Char} (hbody : '\n' ∉ body)
    (hrest : ∀ c ∈ rest.head?, c = '\n') :
    gap .line (body ++ rest) = (gap .plain rest).after body.length := by
  induction body with
  | nil =>
    rw [List.nil_append, List.length_nil, Gap.after_zero]
    cases rest with
    | nil => rw [gap, gap]
    | cons c rest =>
      obtain rfl := hrest c rfl
      rw [gap_blank (by decide), gap, if_pos rfl]
  | cons c body ih =>
    obtain ⟨hc, hbody⟩ := List.ne_and_not_mem_of_not_mem_cons hbody
    rw [List.cons_append, gap, if_neg hc.symm, ih hbody, Gap.after_after, List.length_cons,
      Nat.add_comm]

theorem gap_block_append {body rest : List Char} (hbody : Unclosed (body ++ ['*'])) :
    gap .block (body ++ '*' :: '/' :: rest) = (gap .plain rest).after (body.length + 2) := by
  induction body with
  | nil => rw [List.nil_append, gap, List.length_nil]
  | cons c body ih =>
    rw [List.cons_append, gap, ih hbody.of_cons, Gap.after_after, List.length_cons]
    · congr 1
      omega
    · rintro more rfl hmore
      -- The mark would be at the front of the comment.
      cases body with
      | nil => cases hmore
      | cons d body =>
        obtain rfl : d = '/' := (List.cons.inj hmore).1
        exact hbody ⟨[], body ++ ['*'], rfl⟩

theorem gap_block_of_unclosed {body : List Char} (hbody : Unclosed body) :
    gap .block body = ⟨body.length, false⟩ := by
  induction body with
  | nil => rw [gap, List.length_nil]
  | cons c body ih =>
    rw [gap, ih hbody.of_cons, Gap.after, List.length_cons, Nat.add_comm]
    rintro more rfl rfl
    exact hbody ⟨[], more, rfl⟩

/-- **The lexer takes every gap** that stands at the front of a text. -/
theorem IsGap.gap_append {g behind : List Char} (h : IsGap g behind) :
    gap .plain (g ++ behind) = (gap .plain behind).after g.length := by
  induction h with
  | nil => exact (Gap.after_zero _).symm
  | blank hc _ ih => rw [List.cons_append, gap_blank hc, ih, Gap.after_after, List.length_cons,
      Nat.add_comm]
  | @line body g behind hbody hend _ ih =>
    rw [List.cons_append, List.cons_append, List.append_assoc, gap, gap_line_append hbody hend, ih,
      Gap.after_after, Gap.after_after]
    simp only [List.length_cons, List.length_append]
    congr 1
    omega
  | @block body g behind hbody _ ih =>
    rw [List.cons_append, List.cons_append, List.append_assoc, List.cons_append, List.cons_append,
      gap, gap_block_append hbody, ih, Gap.after_after, Gap.after_after]
    simp only [List.length_cons, List.length_append]
    congr 1
    omega

/-- A comment that is not closed takes the rest of the text. -/
theorem IsGap.gap_unclosed {g body : List Char} (h : IsGap g ('/' :: '*' :: body))
    (hbody : Unclosed body) :
    gap .plain (g ++ '/' :: '*' :: body) = ⟨g.length + (body.length + 2), false⟩ := by
  rw [h.gap_append, gap, gap_block_of_unclosed hbody]
  simp only [Gap.after, Nat.add_comm]

/-! ## The front of a text -/

/-- What a text is at its front: a gap, and then a text with no gap at its own front or a comment
that is not closed. -/
inductive Front : List Char → Prop
  | clear {g behind : List Char} :
      IsGap g behind → gap .plain behind = ⟨0, true⟩ → Front (g ++ behind)
  | unclosed {g body : List Char} :
      IsGap g ('/' :: '*' :: body) → Unclosed body → Front (g ++ '/' :: '*' :: body)

namespace Front

variable {c : Char} {cs body : List Char}

theorem blank (hc : isBlank c = true) (h : Front cs) : Front (c :: cs) := by
  cases h with
  | @clear g behind hg hbehind => exact .clear (g := c :: g) (.blank hc hg) hbehind
  | @unclosed g body hg hbody => exact .unclosed (g := c :: g) (.blank hc hg) hbody

theorem line (hbody : '\n' ∉ body) (hend : ∀ c ∈ cs.head?, c = '\n') (h : Front cs) :
    Front ('/' :: '/' :: (body ++ cs)) := by
  cases h with
  | @clear g behind hg hbehind =>
    rw [← List.append_assoc]
    exact .clear (.line hbody hend hg) hbehind
  | @unclosed g comment hg hcomment =>
    rw [← List.append_assoc]
    exact .unclosed (.line hbody hend hg) hcomment

theorem block (hbody : Unclosed (body ++ ['*'])) (h : Front cs) :
    Front ('/' :: '*' :: (body ++ '*' :: '/' :: cs)) := by
  cases h with
  | @clear g behind hg hbehind =>
    have hfront := Front.clear (.block hbody hg) hbehind
    rwa [List.cons_append, List.cons_append, List.append_assoc] at hfront
  | @unclosed g comment hg hcomment =>
    have hfront := Front.unclosed (.block hbody hg) hcomment
    rwa [List.cons_append, List.cons_append, List.append_assoc] at hfront

end Front

/-- What a text is from inside of a gap. -/
def FrontIn : GapMode → List Char → Prop
  | .plain, cs => Front cs
  | .line, cs => ∃ body rest, cs = body ++ rest ∧ '\n' ∉ body ∧ (∀ c ∈ rest.head?, c = '\n') ∧
      Front rest
  | .block, cs => Unclosed cs ∨
      ∃ body rest, cs = body ++ '*' :: '/' :: rest ∧ Unclosed (body ++ ['*']) ∧ Front rest

/-- The cases are those of the search for the end of a gap. -/
theorem frontIn (mode : GapMode) (cs : List Char) : FrontIn mode cs := by
  fun_induction gap mode cs with
  | case1 => exact .clear (g := []) .nil (by rw [gap])
  | case2 rest ih =>
    obtain ⟨body, rest, rfl, hbody, hend, hrest⟩ := ih
    exact hrest.line hbody hend
  | case3 rest ih =>
    rcases ih with hbody | ⟨body, rest, rfl, hbody, hrest⟩
    · exact .unclosed (g := []) .nil hbody
    · exact hrest.block hbody
  | case4 c rest _ _ hc ih => exact Front.blank hc ih
  | case5 c rest hline hblock hc =>
    refine .clear (g := []) .nil ?_
    rw [gap, if_neg hc]
    · exact hline
    · exact hblock
  | case6 => exact ⟨[], [], rfl, List.not_mem_nil, by simp, .clear (g := []) .nil (by rw [gap])⟩
  | case7 rest ih =>
    refine ⟨[], _, rfl, List.not_mem_nil, ?_, Front.blank (by decide) ih⟩
    rintro c hc
    exact (Option.some.inj hc).symm
  | case8 c rest hc ih =>
    obtain ⟨body, rest, rfl, hbody, hend, hrest⟩ := ih
    exact ⟨c :: body, rest, rfl, List.not_mem_cons_of_ne_of_not_mem (Ne.symm hc) hbody, hend, hrest⟩
  | case9 => exact .inl fun h => absurd (List.infix_nil.1 h) (List.cons_ne_nil _ _)
  | case10 rest ih =>
    refine .inr ⟨[], rest, rfl, ?_, ih⟩
    intro h
    exact absurd h.length_le (by decide)
  | case11 c rest hc ih =>
    rcases ih with hrest | ⟨body, rest, rfl, hbody, hrest⟩
    · exact .inl (hrest.cons hc)
    · refine .inr ⟨c :: body, rest, rfl, hbody.cons ?_, hrest⟩
      rintro more hstar hmore
      refine hc (more ++ '/' :: rest) hstar ?_
      rw [← List.cons_append, ← hmore, List.append_assoc]
      rfl

/-- **Every text has a front.** -/
theorem front (cs : List Char) : Front cs := frontIn .plain cs

end ThreeAddress.Token
