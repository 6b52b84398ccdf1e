import Mathlib.Data.List.TakeWhile
import Mathlib.Tactic.SplitIfs
import ThreeAddress.Token.Cursor

/-!
# Spellings

The texts that the tokens of each kind can have, and that all tokens of a source text have one of
them.

* `Kind.isWord`, `Kind.isSymbol`: the kinds of the lexemes that letters and that symbols start.
* `Token.Spelling`: the rules of the lexer, one for each kind of lexeme.
* `Scan.ofSource_lexical`: a token of a source text follows a rule, or it is the end of input, or it
  stands for a comment that is not closed.
-/

namespace ThreeAddress

open Text

/-! ## Words and symbols -/

namespace Kind

/-- Whether the kind is that of a name or a keyword. -/
def isWord : Kind → Bool
  | intType | floatType | stringType | ifWord | elseWord | forWord | whileWord | returnWord
  | identifier => true
  | _ => false

/-- Whether the kind is that of an operator, a bracket or a separator. -/
def isSymbol : Kind → Bool
  | assign | plus | minus | times | divide | equal | notEqual | less | greater | lessEqual
  | greaterEqual | leftParen | rightParen | leftBrace | rightBrace | semicolon | comma => true
  | _ => false

theorem isWord_ofWord (word : String) : (ofWord word).isWord = true := by
  unfold ofWord
  split_ifs <;> rfl

theorem isSymbol_of_ofPair? {c d : Char} {k : Kind} (h : ofPair? c d = some k) :
    k.isSymbol = true := by
  unfold ofPair? at h
  split at h <;> cases h <;> rfl

theorem isSymbol_of_ofSymbol? {c : Char} {k : Kind} (h : ofSymbol? c = some k) :
    k.isSymbol = true := by
  unfold ofSymbol? at h
  split at h <;> cases h <;> rfl

variable {k : Kind}

theorem ofWord_ne (hk : k.isWord = false) (word : String) : ofWord word ≠ k := by
  rintro rfl
  rw [isWord_ofWord] at hk
  cases hk

theorem ofPair?_ne (hk : k.isSymbol = false) (c d : Char) : ofPair? c d ≠ some k := by
  intro h
  rw [isSymbol_of_ofPair? h] at hk
  cases hk

theorem ofSymbol?_ne (hk : k.isSymbol = false) (c : Char) : ofSymbol? c ≠ some k := by
  intro h
  rw [isSymbol_of_ofSymbol? h] at hk
  cases hk

end Kind

namespace Token

/-! ## Rules -/

/-- The texts of the tokens of a kind. -/
inductive Spelling : Kind → List Char → Prop
  /-- A keyword, or any other word. -/
  | word {c : Char} {cs : List Char} :
      isLetter c = true → (∀ d ∈ cs, continuesName d = true) →
      Spelling (Kind.ofWord (String.ofList (c :: cs))) (c :: cs)
  | int {cs : List Char} :
      cs ≠ [] → (∀ c ∈ cs, isDecimalDigit c = true) → Spelling .intLiteral cs
  | float {whole fraction : List Char} :
      whole ≠ [] → (∀ c ∈ whole, isDecimalDigit c = true) →
      (∀ c ∈ fraction, isDecimalDigit c = true) →
      Spelling .floatLiteral (whole ++ '.' :: fraction)
  | string {cs : List Char} : '"' ∉ cs → Spelling .stringLiteral cs
  | pair {c d : Char} {k : Kind} : Kind.ofPair? c d = some k → Spelling k [c, d]
  | symbol {c : Char} {k : Kind} : Kind.ofSymbol? c = some k → Spelling k [c]
  /-- A character that starts nothing. -/
  | unknown {c : Char} :
      isBlank c = false → isLetter c = false → isDecimalDigit c = false → c ≠ '"' →
      Kind.ofSymbol? c = none → Spelling .unknown [c]

/-- A token that a source text can have. -/
def Lexical (t : Token) : Prop :=
  Spelling t.kind t.text.toList ∨ (t.kind = .endOfInput ∧ t.text = "") ∨
    (t.kind = .unknown ∧ t.text = unclosedComment)

/-! ## Numbers -/

theorem Spelling.digits {cs : List Char} (h : Spelling .intLiteral cs) :
    cs ≠ [] ∧ ∀ c ∈ cs, isDecimalDigit c = true := by
  generalize hk : Kind.intLiteral = k at h
  cases h with
  | word => exact absurd hk.symm (Kind.ofWord_ne rfl _)
  | int hne hdigits => exact ⟨hne, hdigits⟩
  | pair h =>
    subst hk
    exact absurd h (Kind.ofPair?_ne rfl _ _)
  | symbol h =>
    subst hk
    exact absurd h (Kind.ofSymbol?_ne rfl _)
  | float | string | unknown => cases hk

theorem Spelling.point {cs : List Char} (h : Spelling .floatLiteral cs) :
    ∃ whole fraction, cs = whole ++ '.' :: fraction ∧ whole ≠ [] ∧
      (∀ c ∈ whole, isDecimalDigit c = true) ∧ ∀ c ∈ fraction, isDecimalDigit c = true := by
  generalize hk : Kind.floatLiteral = k at h
  cases h with
  | word => exact absurd hk.symm (Kind.ofWord_ne rfl _)
  | float hne hwhole hfraction => exact ⟨_, _, rfl, hne, hwhole, hfraction⟩
  | pair h =>
    subst hk
    exact absurd h (Kind.ofPair?_ne rfl _ _)
  | symbol h =>
    subst hk
    exact absurd h (Kind.ofSymbol?_ne rfl _)
  | int | string | unknown => cases hk

theorem Lexical.spelling {t : Token} (h : t.Lexical)
    (hk : t.kind = .intLiteral ∨ t.kind = .floatLiteral) : Spelling t.kind t.text.toList := by
  rcases h with h | ⟨h, -⟩ | ⟨h, -⟩
  · exact h
  · rcases hk with hk | hk <;> cases h.symm.trans hk
  · rcases hk with hk | hk <;> cases h.symm.trans hk

/-! ## Lexemes -/

theorem number_spelling {head : Char} {tail : List Char} (h : isDecimalDigit head = true) :
    Spelling (number head tail).kind (number head tail).value := by
  have hwhole : ∀ c ∈ head :: tail.takeWhile isDecimalDigit, isDecimalDigit c = true :=
    List.forall_mem_cons.2 ⟨h, fun c hc => List.mem_takeWhile_imp hc⟩
  unfold number
  split
  · exact .float (List.cons_ne_nil _ _) hwhole fun c hc => List.mem_takeWhile_imp hc
  · exact .int (List.cons_ne_nil _ _) hwhole

theorem symbol_spelling {head : Char} {tail : List Char} (hblank : isBlank head = false)
    (hletter : isLetter head = false) (hdigit : isDecimalDigit head = false) (hquote : head ≠ '"') :
    Spelling (symbol head tail).kind (symbol head tail).value := by
  unfold symbol
  split
  · next k next h =>
    obtain ⟨c, -, h⟩ := Option.bind_eq_some_iff.1 h
    obtain ⟨k', hk', h⟩ := Option.map_eq_some_iff.1 h
    cases h
    exact .pair hk'
  · cases h : Kind.ofSymbol? head with
    | none => exact .unknown hblank hletter hdigit hquote h
    | some k => exact .symbol h

/-- The lexeme at the front of a text without a blank there follows a rule. -/
theorem lexeme?_spelling {head : Char} {tail : List Char} {l : Lexeme}
    (hblank : isBlank head = false) (h : lexeme? head tail = some l) :
    Spelling l.kind l.value := by
  unfold lexeme? at h
  split_ifs at h with hletter hdigit hquote
  · cases h
    exact .word hletter fun d hd => List.mem_takeWhile_imp hd
  · cases h
    exact number_spelling hdigit
  · unfold string? at h
    dsimp only at h
    split_ifs at h
    cases h
    refine .string fun hmem => ?_
    have hne := List.mem_takeWhile_imp hmem
    simp at hne
  · cases h
    exact symbol_spelling hblank (Bool.not_eq_true _ ▸ hletter) (Bool.not_eq_true _ ▸ hdigit) hquote

/-! ## Gaps -/

/-- No blank follows a gap. -/
theorem gap_head {mode : GapMode} {cs rest : List Char} {c : Char}
    (hclosed : (gap mode cs).closed = true) (h : cs.drop (gap mode cs).length = c :: rest) :
    isBlank c = false := by
  fun_induction gap mode cs with
  | case1 | case6 => cases h
  | case9 => cases hclosed
  | case5 _ _ _ _ hd =>
    cases h
    exact Bool.not_eq_true _ ▸ hd
  | case2 _ ih | case3 _ ih | case7 _ ih | case10 _ ih | case4 _ _ _ _ _ ih | case8 _ _ _ ih
  | case11 _ _ _ ih => exact ih hclosed (by rwa [Gap.after, Nat.add_comm] at h)

end Token

/-! ## Tokens of a source text -/

theorem Cursor.forward_rest (c : Cursor) (n : Nat) : (c.forward n).rest = c.rest.drop n := by
  induction n generalizing c with
  | zero => rfl
  | succ n ih =>
    rw [forward, ih]
    unfold advance
    cases hrest : c.rest with
    | nil => simp [hrest]
    | cons head rest =>
      dsimp only
      split_ifs <;> rfl

theorem Cursor.next_lexical {c after : Cursor} {t : Token} (h : c.next = (.ok t, after)) :
    t.Lexical := by
  unfold next at h
  dsimp only at h
  split_ifs at h with hclosed
  · split at h
    · cases h
      exact .inr (.inl ⟨rfl, rfl⟩)
    · next head tail hrest =>
      rw [forward_rest] at hrest
      split at h
      · next l hl =>
        cases h
        refine .inl ?_
        rw [String.toList_ofList]
        exact Token.lexeme?_spelling (Token.gap_head hclosed hrest) hl
      · cases h
  · cases h
    exact .inr (.inr ⟨rfl, rfl⟩)

theorem Scan.upTo_lexical (n : Nat) (c : Cursor) : ∀ t ∈ (upTo n c).tokens, t.Lexical := by
  induction n generalizing c with
  | zero => exact fun t ht => absurd ht List.not_mem_nil
  | succ n ih =>
    rw [upTo]
    split
    · exact fun t ht => absurd ht List.not_mem_nil
    · next t after h =>
      split_ifs
      · exact List.forall_mem_singleton.2 (Cursor.next_lexical h)
      · exact List.forall_mem_cons.2 ⟨Cursor.next_lexical h, ih after⟩

/-- **The tokens of a source text follow the rules.** -/
theorem Scan.ofSource_lexical (source file : String) :
    ∀ t ∈ (Scan.ofSource source file).tokens, t.Lexical :=
  upTo_lexical _ _

end ThreeAddress
