import ThreeAddress.Proofs.Literal.Written
import ThreeAddress.Proofs.Number.Numeral
import ThreeAddress.Proofs.Token.Printing
import ThreeAddress.Proofs.Tree.Parts
import ThreeAddress.Proofs.Tree.Regular

/-!
# Writing trees

A tree as the tokens that it can be written with. Operands stand in parentheses where the grammar
would group them in another way, and redundant pairs may stand around any expression.

* `Manner`: how the floats are written, and how many redundant pairs each expression has.
* `needsParens`: an operand of the lower tier needs parentheses to the right of an operator and next
  to one of the higher tier, and one of the higher tier needs them to the right of such an operator.
* `Node.expressionTokens`, `Node.statementTokens`, `Node.programTokens`: the tokens.
* `Node.Writable`: the names and literals of a node can be tokens.
* `Literal.exists_digits`: the text of an integer is read as it.
* `wellFormed_programTokens`: the tokens of a program are ones that a source text can have.
-/

namespace ThreeAddress

/-! ## Operators -/

namespace Operator

/-- Whether an operator belongs to the higher tier. -/
def isHigh : Operator → Bool
  | mul | div => true
  | _ => false

/-- The kind of the token that an operator is written as. -/
def kind : Operator → Kind
  | add => .plus
  | sub => .minus
  | mul => .times
  | div => .divide
  | eq => .equal
  | ne => .notEqual
  | lt => .less
  | gt => .greater
  | le => .lessEqual
  | ge => .greaterEqual
  | other _ => .unknown

end Operator

/-! ## Tokens of trees -/

/-- A token that is not read from a text. -/
def Token.free (kind : Kind) (text : String) : Token := ⟨kind, text, none⟩

/-- Tokens in pairs of parentheses. -/
def enclose : Nat → List Token → List Token
  | 0, ts => ts
  | n + 1, ts => .free .leftParen "(" :: (enclose n ts ++ [.free .rightParen ")"])

/-- Whether an operand needs parentheses to the left or to the right of an operator. -/
def needsParens (outer : Operator) (right : Bool) : Node → Bool
  | .binary _ inner _ _ => if inner.isHigh then outer.isHigh && right else outer.isHigh || right
  | _ => false

/-- How a tree is written: the text of each float and the number of redundant pairs of parentheses
around each expression. Both are given by the way to the node, which has the numbers of the parts
that lead to it from the root, the last one first. -/
structure Manner where
  float : List Nat → Float → String
  pairs : List Nat → Nat

/-- The token of a declared type. -/
def typeTokens : Option Ty → List Token
  | none => []
  | some type => [.free (.ofWord type.name) type.name]

namespace Node

/-- The tokens of an expression that the way leads to. -/
def expressionTokens (m : Manner) : List Nat → Node → List Token
  | way, int value _ => enclose (m.pairs way) [.free .intLiteral (Literal.intText value)]
  | way, float value _ => enclose (m.pairs way) [.free .floatLiteral (m.float way value)]
  | way, string value _ => enclose (m.pairs way) [.free .stringLiteral value]
  | way, var name _ => enclose (m.pairs way) [.free .identifier name]
  | way, binary left op right _ =>
    enclose (m.pairs way)
      (enclose (needsParens op false left).toNat (left.expressionTokens m (0 :: way)) ++
        .free op.kind op.symbol ::
          enclose (needsParens op true right).toNat (right.expressionTokens m (1 :: way)))
  | _, _ => []

/-- The tokens of an assignment without its semicolon. -/
def updateTokens (m : Manner) (way : List Nat) : Node → List Token
  | assign name value declares _ =>
    typeTokens declares ++
      .free .identifier name :: .free .assign "=" :: value.expressionTokens m (0 :: way)
  | _ => []

mutual

/-- The tokens of a statement. -/
def statementTokens (m : Manner) : List Nat → Node → List Token
  | way, block ss _ =>
    .free .leftBrace "\x7b" :: (programTokens m (0 :: way) ss ++ [.free .rightBrace "\x7d"])
  | way, ifThen condition thenBranch _ =>
    .free .ifWord "if" :: (enclose 1 (condition.expressionTokens m (0 :: way)) ++
      thenBranch.statementTokens m (1 :: way))
  | way, ifElse condition thenBranch elseBranch _ =>
    .free .ifWord "if" :: (enclose 1 (condition.expressionTokens m (0 :: way)) ++
      (thenBranch.statementTokens m (1 :: way) ++
        .free .elseWord "else" :: elseBranch.statementTokens m (2 :: way)))
  | way, forLoop init condition update body _ =>
    .free .forWord "for" :: .free .leftParen "(" ::
      (init.updateTokens m (0 :: way) ++ .free .semicolon ";" ::
        (condition.expressionTokens m (1 :: way) ++ .free .semicolon ";" ::
          (update.updateTokens m (2 :: way) ++ .free .rightParen ")" ::
            body.statementTokens m (3 :: way))))
  | way, whileLoop condition body _ =>
    .free .whileWord "while" :: (enclose 1 (condition.expressionTokens m (0 :: way)) ++
      body.statementTokens m (1 :: way))
  | _, ret _ => [.free .returnWord "return", .free .semicolon ";"]
  | way, retValue value _ =>
    .free .returnWord "return" ::
      (value.expressionTokens m (0 :: way) ++ [.free .semicolon ";"])
  | way, s => s.updateTokens m way ++ [.free .semicolon ";"]

/-- The tokens of some statements. The first one is part 0 of them, and the others are part 1. -/
def programTokens (m : Manner) : List Nat → List Node → List Token
  | _, [] => []
  | way, s :: ss => s.statementTokens m (0 :: way) ++ programTokens m (1 :: way) ss

end

/-! ## Trees that can be written -/

/-- The names and literals of the node can be tokens. The texts of a float read as a number that is
equal to it. -/
def Writable (float : List Nat → Float → String) : Node → Prop
  | .assign name _ declares _ =>
    Token.Spelling .identifier name.toList ∧ ∀ type ∈ declares, type ∈ [Ty.int, Ty.float, Ty.string]
  | .binary _ op _ _ => op ∈ Operator.known
  | .int value _ => 0 ≤ value
  | .float value _ =>
    ∀ way, Token.Spelling .floatLiteral (float way value).toList ∧
      ∃ x, Literal.readFloat? (float way value).toList = some x ∧ (value == x) = true
  | .string value _ => '"' ∉ value.toList
  | .var name _ => Token.Spelling .identifier name.toList
  | _ => True

end Node

/-! ## Integers -/

namespace Literal

theorem digitValue?_of_isDigit {c : Char} (h : c.isDigit = true) :
    Text.digitValue? c = some (c.toNat - '0'.toNat) := by
  simp only [Char.isDigit, Bool.and_eq_true, decide_eq_true_eq, ge_iff_le,
    UInt32.le_iff_toNat_le] at h
  obtain ⟨hlow, hhigh⟩ : 48 ≤ c.toNat ∧ c.toNat ≤ 57 := h
  have hoffset : Text.decimalDigits.offset? c.toNat = some (c.toNat - 48) := by
    rw [Text.decimalDigits, RangeTable.offset?, if_neg (by omega), if_pos hhigh]
  rw [Text.digitValue?, hoffset, Option.map_some, Nat.mod_eq_of_lt (by omega)]
  rfl

theorem mapM_digitValue?_of_allDigits {cs : List Char} (h : Number.AllDigits cs) :
    cs.mapM Text.digitValue? = some (cs.map fun c => c.toNat - '0'.toNat) := by
  induction cs with
  | nil => rfl
  | cons c cs ih =>
    obtain ⟨hc, hcs⟩ := List.forall_mem_cons.1 h
    rw [List.mapM_cons, digitValue?_of_isDigit hc, ih hcs]
    rfl

theorem length_toDigits_le {n : Nat} (h : hasText n = true) :
    (Nat.toDigits 10 n).length ≤ digitLimit := by
  have hlimit : 0 < digitLimit := by decide
  rw [hasText_iff, Int.natAbs_natCast] at h
  generalize digitLimit = limit at hlimit h ⊢
  exact (Nat.length_toDigits_le_iff (by decide) hlimit).2 h

/-- **The text of a natural number is read as it.** -/
theorem exists_digits {value : Int} (hvalue : 0 ≤ value) (htext : hasText value = true) :
    ∃ digits, (intText value).toList.mapM Text.digitValue? = some digits ∧ digits ≠ [] ∧
      digits.length ≤ digitLimit ∧ (Literal.value digits : Int) = value := by
  obtain ⟨n, rfl⟩ := Int.eq_ofNat_of_zero_le hvalue
  have hdigits : (intText n).toList = Nat.toDigits 10 n := by
    rw [intText, Int.toString_eq_repr]
    exact Nat.toList_repr
  refine ⟨(Nat.toDigits 10 n).map fun c => c.toNat - '0'.toNat, ?_, ?_, ?_, ?_⟩
  · rw [hdigits, mapM_digitValue?_of_allDigits (Number.allDigits_toDigits n)]
  · exact fun h => Nat.toDigits_ne_nil (List.map_eq_nil_iff.1 h)
  · rw [List.length_map]
    exact length_toDigits_le htext
  · rw [Literal.value, List.foldl_map, ← Nat.ofDigitChars_eq_foldl, Nat.ofDigitChars_ten_toDigits]

end Literal

/-! ## Tokens of source texts -/

theorem Token.spelling_word {c : Char} {cs : List Char} (hc : Text.isLetter c = true)
    (hcs : cs.all continuesName = true) :
    Spelling (Kind.ofWord (String.ofList (c :: cs))) (c :: cs) :=
  .word hc (List.all_eq_true.1 hcs)

/-- The tokens can be read from a source text. -/
abbrev AllWellFormed (ts : List Token) : Prop := ∀ t ∈ ts, t.WellFormed

namespace AllWellFormed

variable {t : Token} {ts us : List Token}

theorem nil : AllWellFormed [] := fun _ ht => absurd ht List.not_mem_nil

theorem cons (ht : t.WellFormed) (hts : AllWellFormed ts) : AllWellFormed (t :: ts) :=
  List.forall_mem_cons.2 ⟨ht, hts⟩

theorem append (hts : AllWellFormed ts) (hus : AllWellFormed us) : AllWellFormed (ts ++ us) :=
  List.forall_mem_append.2 ⟨hts, hus⟩

theorem singleton (ht : t.WellFormed) : AllWellFormed [t] := .cons ht .nil

theorem free {k : Kind} {text : String} (h : Token.Spelling k text.toList) :
    AllWellFormed [.free k text] :=
  singleton h

/-- Tokens and a symbol behind them. -/
theorem snoc (hts : AllWellFormed ts) {c : Char} {k : Kind} {text : String}
    (hk : Kind.ofSymbol? c = some k) (htext : text.toList = [c]) :
    AllWellFormed (ts ++ [.free k text]) := by
  refine hts.append (.singleton ?_)
  rw [Token.WellFormed, Token.free, htext]
  exact .symbol hk

theorem enclose (hts : AllWellFormed ts) (n : Nat) : AllWellFormed (enclose n ts) := by
  induction n with
  | zero => exact hts
  | succ n ih => exact .cons (.symbol rfl) (ih.snoc rfl rfl)

theorem typeTokens {declares : Option Ty}
    (h : ∀ type ∈ declares, type ∈ [Ty.int, Ty.float, Ty.string]) :
    AllWellFormed (typeTokens declares) := by
  cases declares with
  | none => exact nil
  | some type =>
    have htype := h type rfl
    simp only [List.mem_cons, List.not_mem_nil, or_false] at htype
    rcases htype with rfl | rfl | rfl
    · exact .singleton (@Token.spelling_word 'i' ['n', 't'] rfl rfl)
    · exact .singleton (@Token.spelling_word 'f' ['l', 'o', 'a', 't'] rfl rfl)
    · exact .singleton
        (@Token.spelling_word 's' ['t', 'r', 'i', 'n', 'g'] rfl rfl)

end AllWellFormed

theorem Operator.wellFormed {op : Operator} (h : op ∈ known) :
    (Token.free op.kind op.symbol).WellFormed := by
  simp only [known, List.mem_cons, List.not_mem_nil, or_false] at h
  rcases h with rfl | rfl | rfl | rfl | rfl | rfl | rfl | rfl | rfl | rfl
  all_goals first | exact .symbol rfl | exact .pair rfl

namespace Node

variable {m : Manner}

theorem RegularExpression.wellFormed {e : Node} (he : e.RegularExpression)
    (hwritable : ∀ n ∈ e.parts, n.Writable m.float) (way : List Nat) :
    AllWellFormed (e.expressionTokens m way) := by
  induction he generalizing way with
  | @int value l htext =>
    have hvalue : 0 ≤ value := hwritable (.int value l) List.mem_cons_self
    obtain ⟨digits, hdigits, hne, -, -⟩ := Literal.exists_digits hvalue htext
    refine .enclose (.free (.int (fun hnil => ?_) (Literal.isDecimalDigit_of_mapM hdigits))) _
    rw [hnil] at hdigits
    exact hne (Option.some.inj hdigits).symm
  | @float value l =>
    have hvalue : (Node.float value l).Writable m.float := hwritable _ List.mem_cons_self
    exact .enclose (.free (hvalue way).1) _
  | @string value l =>
    have hvalue : (Node.string value l).Writable m.float := hwritable _ List.mem_cons_self
    exact .enclose (.free (.string hvalue)) _
  | @var name l =>
    have hname : Token.Spelling .identifier name.toList :=
      hwritable (.var name l) List.mem_cons_self
    exact .enclose (.free hname) _
  | binary _ _ ihl ihr =>
    obtain ⟨hop, hleft, hright⟩ := forall_parts_binary.1 hwritable
    exact .enclose (((ihl hleft _).enclose _).append
      (.cons (Operator.wellFormed hop) ((ihr hright _).enclose _))) _

theorem wellFormed_updateTokens {s : Node} (hs : s.Regular) (hassign : s.isAssignment = true)
    (hwritable : ∀ n ∈ s.parts, n.Writable m.float) (way : List Nat) :
    AllWellFormed (s.updateTokens m way) := by
  cases hs with
  | assign hvalue =>
    obtain ⟨⟨hname, hdeclares⟩, hparts⟩ := List.forall_mem_cons.1 hwritable
    exact (AllWellFormed.typeTokens hdeclares).append
      (.cons hname (.cons (.symbol rfl) (hvalue.wellFormed hparts _)))
  | _ => cases hassign

theorem wellFormed_programTokens_of_forall {ss : List Node}
    (h : ∀ s ∈ ss, ∀ way, AllWellFormed (s.statementTokens m way))
    (way : List Nat) : AllWellFormed (programTokens m way ss) := by
  induction ss generalizing way with
  | nil => exact .nil
  | cons s ss ih =>
    obtain ⟨hs, hss⟩ := List.forall_mem_cons.1 h
    exact (hs _).append (ih hss _)

theorem Regular.wellFormed {s : Node} (hs : s.Regular)
    (hwritable : ∀ n ∈ s.parts, n.Writable m.float) (way : List Nat) :
    AllWellFormed (s.statementTokens m way) := by
  have hif : (Token.free .ifWord "if").WellFormed :=
    @Token.spelling_word 'i' ['f'] rfl rfl
  induction hs generalizing way with
  | @assign name value declares l hvalue =>
    exact (wellFormed_updateTokens (.assign hvalue) rfl hwritable way).snoc rfl rfl
  | block _ ih =>
    obtain ⟨-, hparts⟩ := forall_parts_block.1 hwritable
    refine .cons (.symbol rfl) (.snoc (wellFormed_programTokens_of_forall ?_ _) rfl rfl)
    exact fun s hs => ih s hs (hparts s hs)
  | ifThen hc _ _ iht =>
    obtain ⟨-, hcondition, hthen⟩ := forall_parts_ifThen.1 hwritable
    exact .cons hif (((hc.wellFormed hcondition _).enclose 1).append (iht hthen _))
  | ifElse hc _ _ _ _ iht ihe =>
    obtain ⟨-, hcondition, hthen, helse⟩ := forall_parts_ifElse.1 hwritable
    refine .cons hif (((hc.wellFormed hcondition _).enclose 1).append ((iht hthen _).append ?_))
    exact .cons (@Token.spelling_word 'e' ['l', 's', 'e'] rfl rfl) (ihe helse _)
  | forLoop hi hiregular hc hu huregular _ _ _ _ ihb =>
    obtain ⟨-, hinit, hcondition, hupdate, hbody⟩ := forall_parts_forLoop.1 hwritable
    have hinitTokens := wellFormed_updateTokens hiregular hi hinit
    have hupdateTokens := wellFormed_updateTokens huregular hu hupdate
    refine .cons (@Token.spelling_word 'f' ['o', 'r'] rfl rfl)
      (.cons (.symbol rfl) ((hinitTokens _).append (.cons (.symbol rfl) ?_)))
    refine (hc.wellFormed hcondition _).append (.cons (.symbol rfl) ?_)
    exact (hupdateTokens _).append (.cons (.symbol rfl) (ihb hbody _))
  | whileLoop hc _ _ ihb =>
    obtain ⟨-, hcondition, hbody⟩ := forall_parts_whileLoop.1 hwritable
    refine .cons (@Token.spelling_word 'w' ['h', 'i', 'l', 'e'] rfl rfl) ?_
    exact ((hc.wellFormed hcondition _).enclose 1).append (ihb hbody _)
  | ret =>
    exact .cons (@Token.spelling_word 'r' ['e', 't', 'u', 'r', 'n'] rfl rfl)
      (.singleton (.symbol rfl))
  | retValue hvalue =>
    obtain ⟨-, hparts⟩ := List.forall_mem_cons.1 hwritable
    exact .cons (@Token.spelling_word 'r' ['e', 't', 'u', 'r', 'n'] rfl rfl)
      ((hvalue.wellFormed hparts _).snoc rfl rfl)

/-- **A program is written in tokens that a source text can have.** -/
theorem wellFormed_programTokens {ss : List Node} (hss : ∀ s ∈ ss, s.Regular)
    (hwritable : ∀ n ∈ partsAll ss, n.Writable m.float) (way : List Nat) :
    AllWellFormed (programTokens m way ss) :=
  wellFormed_programTokens_of_forall
    (fun s hs => (hss s hs).wellFormed (forall_partsAll.1 hwritable s hs)) way

end Node

end ThreeAddress
