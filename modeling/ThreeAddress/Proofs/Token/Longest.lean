import ThreeAddress.Proofs.Literal.Digits
import ThreeAddress.Proofs.Text.Classes
import ThreeAddress.Proofs.Token.Gap

/-!
# Longest lexemes

How a lexeme stands in a text, and where it must not end. A lexeme that ends where it may is the one
that the lexer finds, and it is the longest one that can stand there.

* `written`: the text of a lexeme, with the quotes of a string.
* `Ends`: the lexeme does not go on in the text behind it.
* `lexeme?_of_ends`, `lexeme?_fits`: the lexer finds the lexeme that follows a rule and ends.
* `gap_of_ends`: such a lexeme starts neither with a blank nor with a comment.
* `Ends.longest`: no rule gives a longer lexeme at the same place.
-/

namespace ThreeAddress

open Text

namespace Token

/-! ## Ends of lexemes -/

/-- How a lexeme is written. Only the quotes of a string are not part of its value. -/
def written (k : Kind) (value : List Char) : List Char :=
  if k = .stringLiteral then '"' :: (value ++ ['"']) else value

/-- Whether a lexeme goes on with a character: both are part of a longer lexeme, or they open a
comment. -/
def continues : Kind → List Char → Char → Bool
  | .intLiteral, _, c => isDecimalDigit c || c = '.'
  | .floatLiteral, _, c => isDecimalDigit c
  | .assign, _, c | .less, _, c | .greater, _, c => c = '='
  | .divide, _, c => c = '/' || c = '*'
  | .unknown, value, c => value = ['!'] && c = '='
  | k, _, c => k.isWord && continuesName c

/-- The lexeme does not go on in the text behind it. -/
def Ends (k : Kind) (value rest : List Char) : Prop :=
  ∀ c ∈ rest.head?, continues k value c = false

theorem written_of_ne {k : Kind} {value : List Char} (h : k ≠ .stringLiteral) :
    written k value = value := if_neg h

theorem written_int (value : List Char) : written .intLiteral value = value := rfl

theorem written_float (value : List Char) : written .floatLiteral value = value := rfl

/-- The lexeme stands at the front of the text and ends there. -/
def Lexeme.Fits (l : Lexeme) (text : List Char) : Prop :=
  ∃ rest, text = written l.kind l.value ++ rest ∧ Ends l.kind l.value rest ∧
    l.length = (written l.kind l.value).length

theorem Lexeme.Fits.plain {k : Kind} {value text rest : List Char} (hk : k ≠ .stringLiteral)
    (htext : text = value ++ rest) (hends : Ends k value rest) :
    (Lexeme.plain k value).Fits text := by
  refine ⟨rest, ?_, hends, ?_⟩
  · rw [Lexeme.plain, written_of_ne hk, htext]
  · rw [Lexeme.plain, written_of_ne hk]

theorem continues_word (word : String) (value : List Char) (c : Char) :
    continues (Kind.ofWord word) value c = continuesName c := by
  unfold Kind.ofWord
  split_ifs <;> exact Bool.true_and _

/-! ## Marks -/

/-- A character that starts neither a word nor a number nor a string, and that is no blank. -/
structure IsMark (c : Char) : Prop where
  blank : isBlank c = false
  letter : isLetter c = false
  digit : isDecimalDigit c = false
  quote : c ≠ '"'

theorem isMark_of_ofPair? {c d : Char} {k : Kind} (h : Kind.ofPair? c d = some k) : IsMark c := by
  unfold Kind.ofPair? at h
  split at h
  all_goals cases h
  all_goals exact ⟨by decide, by decide, by decide, by decide⟩

theorem isMark_of_ofSymbol? {c : Char} {k : Kind} (h : Kind.ofSymbol? c = some k) : IsMark c := by
  unfold Kind.ofSymbol? at h
  split at h
  all_goals cases h
  all_goals exact ⟨by decide, by decide, by decide, by decide⟩

/-! ## Runs of characters -/

theorem takeWhile_append_of_ends {p : Char → Bool} {run rest : List Char}
    (hrun : ∀ c ∈ run, p c = true) (hend : ∀ c ∈ rest.head?, p c = false) :
    (run ++ rest).takeWhile p = run := by
  rw [List.takeWhile_append_of_pos hrun]
  cases rest with
  | nil => exact List.append_nil _
  | cons c rest =>
    rw [List.takeWhile_cons_of_neg (by simp [hend c rfl]), List.append_nil]

theorem dropWhile_append_of_ends {p : Char → Bool} {run rest : List Char}
    (hrun : ∀ c ∈ run, p c = true) (hend : ∀ c ∈ rest.head?, p c = false) :
    (run ++ rest).dropWhile p = rest := by
  rw [List.dropWhile_append_of_pos hrun]
  cases rest with
  | nil => rfl
  | cons c rest => exact List.dropWhile_cons_of_neg (by simp [hend c rfl])

/-- A point ends a run of digits. -/
theorem ends_point (rest : List Char) : ∀ c ∈ ('.' :: rest).head?, isDecimalDigit c = false := by
  intro c hc
  obtain rfl := Option.some.inj hc
  decide

/-- Behind a run there is no character that continues it. -/
theorem head?_dropWhile {p : Char → Bool} {cs : List Char} :
    ∀ c ∈ (cs.dropWhile p).head?, p c = false := by
  intro c hc
  have hnot := List.head?_dropWhile_not p cs
  rw [Option.mem_def.1 hc] at hnot
  simpa using hnot

/-! ## Symbols -/

/-- The first of two characters of a pair goes on with the second one. -/
theorem continues_of_ofPair? {c d : Char} {k : Kind} (h : Kind.ofPair? c d = some k) :
    continues ((Kind.ofSymbol? c).getD .unknown) [c] d = true := by
  unfold Kind.ofPair? at h
  split at h
  all_goals first | rfl | cases h

/-- A pair is no string and goes on with nothing. -/
theorem ends_of_ofPair? {c d : Char} {k : Kind} (h : Kind.ofPair? c d = some k) :
    k ≠ .stringLiteral ∧ ∀ value rest, Ends k value rest := by
  unfold Kind.ofPair? at h
  split at h
  all_goals cases h
  all_goals exact ⟨nofun, fun _ _ _ _ => rfl⟩

theorem ofSymbol?_ne_stringLiteral (c : Char) :
    (Kind.ofSymbol? c).getD .unknown ≠ .stringLiteral := by
  unfold Kind.ofSymbol?
  split <;> nofun

/-- A symbol goes on in a pair or in a comment. -/
theorem ofPair?_of_continues {c d : Char}
    (h : continues ((Kind.ofSymbol? c).getD .unknown) [c] d = true) :
    (∃ k, Kind.ofPair? c d = some k) ∨ c = '/' ∧ (d = '/' ∨ d = '*') := by
  unfold Kind.ofSymbol? at h
  split at h
  all_goals simp only [Option.getD_some, Option.getD_none, continues, Kind.isWord, Bool.false_and,
    Bool.false_eq_true, Bool.or_eq_true, Bool.and_eq_true, decide_eq_true_eq] at h
  -- Left are `=`, `/`, `<`, `>`, and `!` among the unknown characters.
  · subst h
    exact .inl ⟨_, rfl⟩
  · exact .inr ⟨rfl, h⟩
  · subst h
    exact .inl ⟨_, rfl⟩
  · subst h
    exact .inl ⟨_, rfl⟩
  · obtain ⟨hc, rfl⟩ := h
    obtain rfl := (List.cons.inj hc).1
    exact .inl ⟨_, rfl⟩

theorem symbol_of_ends {c : Char} {rest : List Char}
    (h : Ends ((Kind.ofSymbol? c).getD .unknown) [c] rest) :
    symbol c rest = .plain ((Kind.ofSymbol? c).getD .unknown) [c] := by
  unfold symbol
  split
  · next k next hpair =>
    obtain ⟨d, hd, hpair⟩ := Option.bind_eq_some_iff.1 hpair
    obtain ⟨k', hk', -⟩ := Option.map_eq_some_iff.1 hpair
    have hcontinues := continues_of_ofPair? hk'
    rw [h d hd] at hcontinues
    cases hcontinues
  · rfl

theorem symbol_of_ofPair? {c d : Char} {k : Kind} {rest : List Char}
    (h : Kind.ofPair? c d = some k) : symbol c (d :: rest) = .plain k [c, d] := by
  simp [symbol, h]

/-! ## The lexeme that is found -/

section Found

variable {head : Char} {tail rest : List Char}

theorem lexeme?_word (h : isLetter head = true) :
    lexeme? head tail =
      some (.plain (Kind.ofWord (String.ofList (head :: tail.takeWhile continuesName)))
        (head :: tail.takeWhile continuesName)) := by
  rw [lexeme?, if_pos h]

theorem lexeme?_number (h : isDecimalDigit head = true) :
    lexeme? head tail = some (number head tail) := by
  rw [lexeme?, if_neg (by simp [isLetter_of_isDecimalDigit h]), if_pos h]

theorem number_of_point (h : tail.dropWhile isDecimalDigit = '.' :: rest) :
    number head tail = .plain .floatLiteral
      (head :: tail.takeWhile isDecimalDigit ++ '.' :: rest.takeWhile isDecimalDigit) := by
  simp only [number, h]

theorem number_of_not_point (h : '.' ∉ (tail.dropWhile isDecimalDigit).head?) :
    number head tail = .plain .intLiteral (head :: tail.takeWhile isDecimalDigit) := by
  unfold number
  split
  · next rest hrest =>
    rw [hrest] at h
    exact absurd rfl h
  · rfl

theorem lexeme?_string : lexeme? '"' tail = string? tail := by
  rw [lexeme?, if_neg (by decide), if_neg (by decide), if_pos rfl]

theorem string?_append {body : List Char} (h : '"' ∉ body) :
    string? (body ++ '"' :: rest) = some ⟨.stringLiteral, body, body.length + 2⟩ := by
  have hbody : ∀ c ∈ body, decide (c ≠ '"') = true := fun c hc =>
    decide_eq_true fun heq => h (heq ▸ hc)
  have hend : ∀ c ∈ ('"' :: rest).head?, decide (c ≠ '"') = false := by
    rintro c hc
    obtain rfl := Option.some.inj hc
    decide
  rw [string?, takeWhile_append_of_ends hbody hend]
  simp

theorem string?_eq_none_iff : string? tail = none ↔ '"' ∉ tail := by
  constructor
  · intro h hmem
    obtain ⟨body, rest, rfl, hbody⟩ := List.eq_append_cons_of_mem hmem
    rw [string?_append hbody] at h
    cases h
  · intro h
    have hall : tail.takeWhile (· ≠ '"') = tail :=
      List.takeWhile_eq_self_iff.2 fun c hc => decide_eq_true fun heq => h (heq ▸ hc)
    rw [string?, hall]
    exact if_neg (Nat.lt_irrefl _)

theorem lexeme?_symbol (h : IsMark head) : lexeme? head tail = some (symbol head tail) := by
  rw [lexeme?, if_neg (by simp [h.letter]), if_neg (by simp [h.digit]), if_neg h.quote]

/-- **The lexer finds the lexeme that ends** where it may. -/
theorem lexeme?_of_ends {k : Kind} {value : List Char} (h : Spelling k value)
    (hends : Ends k value rest) (htext : written k value ++ rest = head :: tail) :
    lexeme? head tail = some ⟨k, value, (written k value).length⟩ := by
  cases h with
  | @word c cs hc hcs =>
    rw [written_of_ne (Kind.ofWord_ne rfl _)] at htext ⊢
    obtain ⟨rfl, rfl⟩ := List.cons.inj htext
    have hend : ∀ d ∈ rest.head?, continuesName d = false := fun d hd => by
      rw [← continues_word]
      exact hends d hd
    rw [List.append_eq, lexeme?_word hc, takeWhile_append_of_ends hcs hend]
    rfl
  | @int cs hne hdigits =>
    rw [written_int] at htext ⊢
    obtain ⟨c, cs, rfl⟩ := List.exists_cons_of_ne_nil hne
    obtain ⟨rfl, rfl⟩ := List.cons.inj htext
    obtain ⟨hc, hcs⟩ := List.forall_mem_cons.1 hdigits
    have hend : ∀ d ∈ rest.head?, isDecimalDigit d = false ∧ d ≠ '.' := fun d hd => by
      simpa [continues] using hends d hd
    have hdigit := fun d hd => (hend d hd).1
    have hpoint : '.' ∉ rest.head? := fun h => (hend '.' h).2 rfl
    rw [← dropWhile_append_of_ends hcs hdigit] at hpoint
    rw [List.append_eq, lexeme?_number hc, number_of_not_point hpoint,
      takeWhile_append_of_ends hcs hdigit]
    rfl
  | @float whole fraction hne hwhole hfraction =>
    rw [written_float] at htext ⊢
    obtain ⟨c, cs, rfl⟩ := List.exists_cons_of_ne_nil hne
    rw [List.append_assoc, List.cons_append, List.cons_append] at htext
    obtain ⟨rfl, rfl⟩ := List.cons.inj htext
    obtain ⟨hc, hcs⟩ := List.forall_mem_cons.1 hwhole
    rw [lexeme?_number hc, number_of_point (dropWhile_append_of_ends hcs (ends_point _)),
      takeWhile_append_of_ends hcs (ends_point _), takeWhile_append_of_ends hfraction hends]
    rfl
  | string hquote =>
    rw [written, if_pos rfl, List.cons_append, List.append_assoc] at htext
    obtain ⟨rfl, rfl⟩ := List.cons.inj htext
    rw [lexeme?_string]
    exact (string?_append hquote).trans (by simp [written])
  | pair hpair =>
    rw [written_of_ne (ends_of_ofPair? hpair).1] at htext ⊢
    obtain ⟨rfl, rfl⟩ := List.cons.inj htext
    rw [lexeme?_symbol (isMark_of_ofPair? hpair)]
    exact congrArg some (symbol_of_ofPair? hpair)
  | @symbol c k hsymbol =>
    obtain rfl : (Kind.ofSymbol? c).getD .unknown = k := by rw [hsymbol, Option.getD_some]
    rw [written_of_ne (ofSymbol?_ne_stringLiteral c)] at htext ⊢
    obtain ⟨rfl, rfl⟩ := List.cons.inj htext
    rw [lexeme?_symbol (isMark_of_ofSymbol? hsymbol)]
    exact congrArg some (symbol_of_ends hends)
  | @unknown c hblank hletter hdigit hquote hsymbol =>
    have hkind : (Kind.ofSymbol? c).getD .unknown = .unknown := by rw [hsymbol, Option.getD_none]
    rw [← hkind] at hends htext ⊢
    rw [written_of_ne (ofSymbol?_ne_stringLiteral c)] at htext ⊢
    obtain ⟨rfl, rfl⟩ := List.cons.inj htext
    rw [lexeme?_symbol ⟨hblank, hletter, hdigit, hquote⟩]
    exact congrArg some (symbol_of_ends hends)

theorem isBlank_of_gap_eq (h : gap .plain (head :: tail) = ⟨0, true⟩) : isBlank head = false := by
  have hdrop : (head :: tail).drop (gap .plain (head :: tail)).length = head :: tail := by
    rw [h, List.drop_zero]
  exact gap_head (by rw [h]) hdrop

/-- No comment starts where there is no gap. -/
theorem ne_of_gap_eq {d : Char} (h : gap .plain ('/' :: d :: rest) = ⟨0, true⟩) :
    d ≠ '/' ∧ d ≠ '*' := by
  constructor
  · rintro rfl
    rw [gap] at h
    exact absurd (congrArg Gap.length h) (by simp [Gap.after])
  · rintro rfl
    rw [gap] at h
    exact absurd (congrArg Gap.length h) (by simp [Gap.after])

theorem number_fits : (number head tail).Fits (head :: tail) := by
  have htail : tail = tail.takeWhile isDecimalDigit ++ tail.dropWhile isDecimalDigit :=
    List.takeWhile_append_dropWhile.symm
  by_cases hpoint : '.' ∈ (tail.dropWhile isDecimalDigit).head?
  · obtain ⟨rest, hrest⟩ := List.head?_eq_some_iff.1 hpoint
    rw [number_of_point hrest]
    have hends : Ends .floatLiteral
        (head :: tail.takeWhile isDecimalDigit ++ '.' :: rest.takeWhile isDecimalDigit)
        (rest.dropWhile isDecimalDigit) := head?_dropWhile
    refine .plain nofun ?_ hends
    rw [hrest] at htail
    simpa using htail
  · rw [number_of_not_point hpoint]
    refine .plain nofun (congrArg (head :: ·) htail) fun c hc => ?_
    have hne : c ≠ '.' := fun heq => hpoint (heq ▸ hc)
    simpa [continues, hne] using head?_dropWhile c hc

theorem string?_fits {l : Lexeme} (h : string? tail = some l) : l.Fits ('"' :: tail) := by
  by_cases hmem : '"' ∈ tail
  · obtain ⟨body, rest, rfl, hbody⟩ := List.eq_append_cons_of_mem hmem
    rw [string?_append hbody] at h
    cases h
    exact ⟨rest, by simp [written], fun _ _ => rfl, by simp [written]⟩
  · rw [string?_eq_none_iff.2 hmem] at h
    cases h

theorem symbol_fits (h : gap .plain (head :: tail) = ⟨0, true⟩) :
    (symbol head tail).Fits (head :: tail) := by
  by_cases hends : Ends ((Kind.ofSymbol? head).getD .unknown) [head] tail
  · rw [symbol_of_ends hends]
    exact .plain (ofSymbol?_ne_stringLiteral head) rfl hends
  · obtain ⟨d, hd, hcontinues⟩ : ∃ d ∈ tail.head?,
        continues ((Kind.ofSymbol? head).getD .unknown) [head] d = true := by
      simpa [Ends] using hends
    obtain ⟨rest, rfl⟩ := List.head?_eq_some_iff.1 hd
    rcases ofPair?_of_continues hcontinues with ⟨k, hk⟩ | ⟨rfl, hcomment⟩
    · rw [symbol_of_ofPair? hk]
      exact .plain (ends_of_ofPair? hk).1 rfl ((ends_of_ofPair? hk).2 _ _)
    · obtain ⟨hslash, hstar⟩ := ne_of_gap_eq h
      rcases hcomment with hd | hd
      · exact absurd hd hslash
      · exact absurd hd hstar

/-- **What the lexer finds ends** where it may. -/
theorem lexeme?_fits {l : Lexeme} (hgap : gap .plain (head :: tail) = ⟨0, true⟩)
    (h : lexeme? head tail = some l) : l.Fits (head :: tail) := by
  unfold lexeme? at h
  split_ifs at h with hletter hdigit hquote
  · cases h
    have htail : tail = tail.takeWhile continuesName ++ tail.dropWhile continuesName :=
      List.takeWhile_append_dropWhile.symm
    refine .plain (Kind.ofWord_ne rfl _) (congrArg (head :: ·) htail) fun c hc => ?_
    rw [continues_word]
    exact head?_dropWhile c hc
  · cases h
    exact number_fits
  · subst hquote
    exact string?_fits h
  · cases h
    exact symbol_fits hgap

/-- Only a string without an end is not found. -/
theorem lexeme?_eq_none_iff : lexeme? head tail = none ↔ head = '"' ∧ '"' ∉ tail := by
  constructor
  · intro h
    unfold lexeme? at h
    split_ifs at h with hletter hdigit hquote
    exact ⟨hquote, string?_eq_none_iff.1 h⟩
  · rintro ⟨rfl, hquote⟩
    rw [lexeme?_string, string?_eq_none_iff.2 hquote]

theorem gap_eq_zero (hblank : isBlank head = false)
    (hcomment : head = '/' → ∀ d ∈ tail.head?, d ≠ '/' ∧ d ≠ '*') :
    gap .plain (head :: tail) = ⟨0, true⟩ := by
  rw [gap, if_neg (by simp [hblank])]
  · rintro rest rfl rfl
    exact (hcomment rfl '/' rfl).1 rfl
  · rintro rest rfl rfl
    exact (hcomment rfl '*' rfl).2 rfl

/-- No gap is at the front of a lexeme that ends. -/
theorem gap_of_ends {k : Kind} {value : List Char} (h : Spelling k value)
    (hends : Ends k value rest) : gap .plain (written k value ++ rest) = ⟨0, true⟩ := by
  cases h with
  | @word c cs hc _ =>
    rw [written_of_ne (Kind.ofWord_ne rfl _)]
    refine gap_eq_zero (isBlank_of_isLetter hc) ?_
    rintro rfl
    exact absurd hc (by decide)
  | int hne hdigits =>
    obtain ⟨c, cs, rfl⟩ := List.exists_cons_of_ne_nil hne
    have hc := hdigits c List.mem_cons_self
    rw [written_int]
    refine gap_eq_zero (Literal.isBlank_of_isDecimalDigit hc) ?_
    rintro rfl
    exact absurd hc (by decide)
  | float hne hdigits _ =>
    obtain ⟨c, cs, rfl⟩ := List.exists_cons_of_ne_nil hne
    have hc := hdigits c List.mem_cons_self
    rw [written_float]
    refine gap_eq_zero (Literal.isBlank_of_isDecimalDigit hc) ?_
    rintro rfl
    exact absurd hc (by decide)
  | string _ => exact gap_eq_zero (by decide) nofun
  | pair hpair =>
    rw [written_of_ne (ends_of_ofPair? hpair).1]
    refine gap_eq_zero (isMark_of_ofPair? hpair).blank ?_
    rintro rfl
    cases hpair
  | @symbol c k hsymbol =>
    obtain rfl : (Kind.ofSymbol? c).getD .unknown = k := by rw [hsymbol, Option.getD_some]
    rw [written_of_ne (ofSymbol?_ne_stringLiteral c)]
    refine gap_eq_zero (isMark_of_ofSymbol? hsymbol).blank ?_
    rintro rfl d hd
    simpa [Kind.ofSymbol?, continues] using hends d hd
  | unknown hblank _ _ _ hsymbol =>
    refine gap_eq_zero hblank ?_
    rintro rfl
    cases hsymbol

/-! ## The longest lexeme -/

theorem length_le_takeWhile {p : Char → Bool} {run rest : List Char}
    (hrun : ∀ c ∈ run, p c = true) : run.length ≤ ((run ++ rest).takeWhile p).length := by
  rw [List.takeWhile_append_of_pos hrun, List.length_append]
  exact Nat.le_add_right _ _

theorem length_le_number :
    (head :: tail.takeWhile isDecimalDigit).length ≤ (number head tail).length := by
  by_cases hpoint : '.' ∈ (tail.dropWhile isDecimalDigit).head?
  · obtain ⟨rest, hrest⟩ := List.head?_eq_some_iff.1 hpoint
    rw [number_of_point hrest]
    exact (List.prefix_append _ _).length_le
  · rw [number_of_not_point hpoint]
    exact Nat.le_refl _

theorem length_le_symbol : 1 ≤ (symbol head tail).length := by
  unfold symbol
  split <;> exact Nat.succ_le_succ (Nat.zero_le _)

/-- What follows a rule is no longer than what the lexer finds. -/
theorem Spelling.length_le {k : Kind} {value : List Char} (h : Spelling k value)
    (hstart : written k value <+: head :: tail) :
    ∃ l, lexeme? head tail = some l ∧ (written k value).length ≤ l.length := by
  obtain ⟨more, htext⟩ := hstart
  cases h with
  | string hquote =>
    have hends : Ends .stringLiteral value more := fun _ _ => rfl
    exact ⟨_, lexeme?_of_ends (.string hquote) hends htext, Nat.le_refl _⟩
  | pair hpair =>
    have hends := (ends_of_ofPair? hpair).2
    exact ⟨_, lexeme?_of_ends (.pair hpair) (hends _ _) htext, Nat.le_refl _⟩
  | @word c cs hc hcs =>
    rw [written_of_ne (Kind.ofWord_ne rfl _)] at htext ⊢
    obtain ⟨rfl, rfl⟩ := List.cons.inj htext
    exact ⟨_, lexeme?_word hc, Nat.succ_le_succ (length_le_takeWhile hcs)⟩
  | int hne hdigits =>
    rw [written_int] at htext ⊢
    obtain ⟨c, cs, rfl⟩ := List.exists_cons_of_ne_nil hne
    obtain ⟨rfl, rfl⟩ := List.cons.inj htext
    obtain ⟨hc, hcs⟩ := List.forall_mem_cons.1 hdigits
    refine ⟨_, lexeme?_number hc, Nat.le_trans ?_ length_le_number⟩
    exact Nat.succ_le_succ (length_le_takeWhile hcs)
  | @float whole fraction hne hwhole hfraction =>
    rw [written_float] at htext ⊢
    obtain ⟨c, cs, rfl⟩ := List.exists_cons_of_ne_nil hne
    rw [List.append_assoc, List.cons_append, List.cons_append] at htext
    obtain ⟨rfl, rfl⟩ := List.cons.inj htext
    obtain ⟨hc, hcs⟩ := List.forall_mem_cons.1 hwhole
    refine ⟨_, lexeme?_number hc, ?_⟩
    rw [number_of_point (dropWhile_append_of_ends hcs (ends_point _)),
      takeWhile_append_of_ends hcs (ends_point _)]
    simp only [Lexeme.plain, List.length_append, List.length_cons, Nat.add_le_add_iff_left,
      Nat.add_le_add_iff_right]
    exact length_le_takeWhile hfraction
  | @symbol c k hsymbol =>
    obtain rfl : (Kind.ofSymbol? c).getD .unknown = k := by rw [hsymbol, Option.getD_some]
    rw [written_of_ne (ofSymbol?_ne_stringLiteral c)] at htext ⊢
    obtain ⟨rfl, rfl⟩ := List.cons.inj htext
    exact ⟨_, lexeme?_symbol (isMark_of_ofSymbol? hsymbol), length_le_symbol⟩
  | unknown hblank hletter hdigit hquote hsymbol =>
    obtain ⟨rfl, rfl⟩ := List.cons.inj htext
    exact ⟨_, lexeme?_symbol ⟨hblank, hletter, hdigit, hquote⟩, length_le_symbol⟩

/-- **No rule gives a longer lexeme** than one that ends. -/
theorem Ends.longest {k k' : Kind} {value value' : List Char} (hends : Ends k value rest)
    (h : Spelling k value) (h' : Spelling k' value')
    (hstart : written k' value' <+: written k value ++ rest) :
    (written k' value').length ≤ (written k value).length := by
  cases htext : written k value ++ rest with
  | nil =>
    rw [htext] at hstart
    rw [List.prefix_nil.1 hstart]
    exact Nat.zero_le _
  | cons head tail =>
    rw [htext] at hstart
    obtain ⟨l, hl, hle⟩ := h'.length_le hstart
    rw [lexeme?_of_ends h hends htext] at hl
    cases hl
    exact hle

end Found

end Token

end ThreeAddress
