import ThreeAddress.Grammar.Statement
import ThreeAddress.Literal
import ThreeAddress.Proofs.Tree.Shape

/-!
# The grammar as a relation

Which tokens derive which trees. The rules are those of the grammar, one constructor for each
alternative, and they know nothing of a reader that holds one token at a time: two lists of tokens
derive their trees, whatever stands in front of them and behind them.

* `Derives.Expression`: the two tiers of operators, each of which groups from the left.
* `Derives.Update`: an assignment without its semicolon.
* `Derives.Statement`, `Derives.Block`, `Derives.Program`.

An integer is derivable if it is written in at most 4300 digits. A node carries the place of its
operator or of its first token.
-/

namespace ThreeAddress.Grammar.Derives

/-! ## Expressions -/

/-- The tiers of expressions, from the tightest. -/
inductive Tier where
  | factor
  | term
  | expression

/-- The tokens derive an expression of the tier. -/
inductive Expression : Tier → List Token → Node → Prop
  | int {t : Token} {digits : List Nat} :
      t.kind = .intLiteral → t.text.toList.mapM Text.digitValue? = some digits → digits ≠ [] →
      digits.length ≤ 4300 → Expression .factor [t] (.int (Literal.value digits) t.location)
  | float {t : Token} {x : Float} :
      t.kind = .floatLiteral → Literal.readFloat? t.text.toList = some x →
      Expression .factor [t] (.float x t.location)
  | string {t : Token} :
      t.kind = .stringLiteral → Expression .factor [t] (.string t.text t.location)
  | var {t : Token} : t.kind = .identifier → Expression .factor [t] (.var t.text t.location)
  | parens {opening closing : Token} {ts : List Token} {e : Node} :
      opening.kind = .leftParen → Expression .expression ts e → closing.kind = .rightParen →
      Expression .factor (opening :: (ts ++ [closing])) e
  | ofFactor {ts : List Token} {e : Node} : Expression .factor ts e → Expression .term ts e
  | high {ts us : List Token} {op : Token} {left right : Node} :
      Expression .term ts left → isHighOperator op.kind = true → Expression .factor us right →
      Expression .term (ts ++ op :: us) (.binary left (.ofSymbol op.text) right op.location)
  | ofTerm {ts : List Token} {e : Node} : Expression .term ts e → Expression .expression ts e
  | low {ts us : List Token} {op : Token} {left right : Node} :
      Expression .expression ts left → isLowOperator op.kind = true → Expression .term us right →
      Expression .expression (ts ++ op :: us) (.binary left (.ofSymbol op.text) right op.location)

/-! ## Statements -/

/-- The tokens derive an assignment without its semicolon. -/
inductive Update : List Token → Node → Prop
  | plain {name sign : Token} {ts : List Token} {value : Node} :
      name.kind = .identifier → sign.kind = .assign → Expression .expression ts value →
      Update (name :: sign :: ts) (.assign name.text value none name.location)
  | typed {type name sign : Token} {ts : List Token} {value : Node} :
      type.kind.isType = true → name.kind = .identifier → sign.kind = .assign →
      Expression .expression ts value →
      Update (type :: name :: sign :: ts)
        (.assign name.text value (some (.ofName type.text)) type.location)

/-- The tokens derive an expression in parentheses. -/
inductive Condition : List Token → Node → Prop
  | parens {opening closing : Token} {ts : List Token} {e : Node} :
      opening.kind = .leftParen → Expression .expression ts e → closing.kind = .rightParen →
      Condition (opening :: (ts ++ [closing])) e

mutual

/-- The tokens derive a statement. -/
inductive Statement : List Token → Node → Prop
  | assignment {ts : List Token} {semicolon : Token} {s : Node} :
      Update ts s → semicolon.kind = .semicolon → Statement (ts ++ [semicolon]) s
  | block {ts : List Token} {s : Node} : Block ts s → Statement ts s
  | ifThen {word : Token} {cs ts : List Token} {c b : Node} :
      word.kind = .ifWord → Condition cs c → Block ts b →
      Statement (word :: (cs ++ ts)) (.ifThen c b word.location)
  | ifElse {word other : Token} {cs ts us : List Token} {c b b' : Node} :
      word.kind = .ifWord → Condition cs c → Block ts b → other.kind = .elseWord → Block us b' →
      Statement (word :: (cs ++ (ts ++ other :: us))) (.ifElse c b b' word.location)
  | forLoop {word opening first second closing : Token} {is cs us ts : List Token}
      {i c u b : Node} :
      word.kind = .forWord → opening.kind = .leftParen → Update is i →
      first.kind = .semicolon → Expression .expression cs c → second.kind = .semicolon →
      Update us u → closing.kind = .rightParen → Block ts b →
      Statement (word :: opening :: (is ++ first :: (cs ++ second :: (us ++ closing :: ts))))
        (.forLoop i c u b word.location)
  | whileLoop {word : Token} {cs ts : List Token} {c b : Node} :
      word.kind = .whileWord → Condition cs c → Block ts b →
      Statement (word :: (cs ++ ts)) (.whileLoop c b word.location)
  | ret {word semicolon : Token} :
      word.kind = .returnWord → semicolon.kind = .semicolon →
      Statement [word, semicolon] (.ret word.location)
  | retValue {word semicolon : Token} {ts : List Token} {e : Node} :
      word.kind = .returnWord → Expression .expression ts e → semicolon.kind = .semicolon →
      Statement (word :: (ts ++ [semicolon])) (.retValue e word.location)

/-- The tokens derive a block. -/
inductive Block : List Token → Node → Prop
  | braces {opening closing : Token} {ts : List Token} {ss : List Node} :
      opening.kind = .leftBrace → Program ts ss → closing.kind = .rightBrace →
      Block (opening :: (ts ++ [closing])) (.block ss opening.location)

/-- The tokens derive some statements. -/
inductive Program : List Token → List Node → Prop
  | nil : Program [] []
  | cons {ts us : List Token} {s : Node} {ss : List Node} :
      Statement ts s → Program us ss → Program (ts ++ us) (s :: ss)

end

/-! ## First tokens -/

/-- Whether an expression can start with a token of this kind. -/
def startsExpression : Kind → Bool
  | .intLiteral | .floatLiteral | .stringLiteral | .identifier | .leftParen => true
  | _ => false

/-- Whether a statement can start with a token of this kind. -/
def startsStatement : Kind → Bool
  | .ifWord | .forWord | .whileWord | .returnWord | .leftBrace | .intType | .floatType | .stringType
  | .identifier => true
  | _ => false

theorem Expression.first {tier : Tier} {ts : List Token} {e : Node} (h : Expression tier ts e) :
    ∃ t us, ts = t :: us ∧ startsExpression t.kind = true := by
  induction h with
  | int hk | float hk | string hk | var hk | parens hk => exact ⟨_, _, rfl, by rw [hk]; rfl⟩
  | ofFactor _ ih | ofTerm _ ih => exact ih
  | high _ _ _ ih | low _ _ _ ih =>
    obtain ⟨t, us, rfl, ht⟩ := ih
    exact ⟨t, _, rfl, ht⟩

theorem Update.first {ts : List Token} {s : Node} (h : Update ts s) :
    ∃ t us, ts = t :: us ∧ (t.kind = .identifier ∨ t.kind.isType = true) := by
  cases h with
  | plain hk => exact ⟨_, _, rfl, .inl hk⟩
  | typed hk => exact ⟨_, _, rfl, .inr hk⟩

theorem Block.first {ts : List Token} {s : Node} (h : Block ts s) :
    ∃ t us, ts = t :: us ∧ t.kind = .leftBrace := by
  cases h with
  | braces hk => exact ⟨_, _, rfl, hk⟩

theorem startsStatement_of_isType {k : Kind} (h : k.isType = true) : startsStatement k = true := by
  cases k <;> first | rfl | cases h

theorem Statement.first {ts : List Token} {s : Node} (h : Statement ts s) :
    ∃ t us, ts = t :: us ∧ startsStatement t.kind = true := by
  cases h with
  | assignment h =>
    obtain ⟨t, us, rfl, ht⟩ := h.first
    refine ⟨t, _, rfl, ?_⟩
    rcases ht with ht | ht
    · rw [ht]
      rfl
    · exact startsStatement_of_isType ht
  | block h =>
    obtain ⟨t, us, rfl, ht⟩ := h.first
    exact ⟨t, us, rfl, by rw [ht]; rfl⟩
  | ifThen hk | ifElse hk | forLoop hk | whileLoop hk | ret hk | retValue hk =>
    exact ⟨_, _, rfl, by rw [hk]; rfl⟩

/-! ## Trees -/

theorem Expression.isExpression {tier : Tier} {ts : List Token} {e : Node}
    (h : Expression tier ts e) : e.IsExpression := by
  induction h with
  | int => exact .int
  | float => exact .float
  | string => exact .string
  | var => exact .var
  | parens _ _ _ ih | ofFactor _ ih | ofTerm _ ih => exact ih
  | high _ _ _ ihl ihr | low _ _ _ ihl ihr => exact .binary ihl ihr

theorem Update.isStatement {ts : List Token} {s : Node} (h : Update ts s) : s.IsStatement := by
  cases h with
  | plain _ _ h => exact .assign h.isExpression
  | typed _ _ _ h => exact .assign h.isExpression

theorem Condition.isExpression {ts : List Token} {e : Node} (h : Condition ts e) :
    e.IsExpression := by
  cases h with
  | parens _ h _ => exact h.isExpression

mutual

theorem Statement.isStatement {ts : List Token} {s : Node} : Statement ts s → s.IsStatement
  | .assignment h _ => h.isStatement
  | .block h => h.isStatement
  | .ifThen _ hc hb => .ifThen hc.isExpression hb.isStatement
  | .ifElse _ hc hb _ hb' => .ifElse hc.isExpression hb.isStatement hb'.isStatement
  | .forLoop _ _ hi _ hc _ hu _ hb =>
    .forLoop hi.isStatement hc.isExpression hu.isStatement hb.isStatement
  | .whileLoop _ hc hb => .whileLoop hc.isExpression hb.isStatement
  | .ret _ _ => .ret
  | .retValue _ h _ => .retValue h.isExpression

theorem Block.isStatement {ts : List Token} {s : Node} : Block ts s → s.IsStatement
  | .braces _ h _ => .block h.isStatement

/-- **What the grammar derives has a meaning.** -/
theorem Program.isStatement {ts : List Token} {ss : List Node} :
    Program ts ss → ∀ s ∈ ss, s.IsStatement
  | .nil => fun _ hs => absurd hs List.not_mem_nil
  | .cons h h' => List.forall_mem_cons.2 ⟨h.isStatement, h'.isStatement⟩

end

end ThreeAddress.Grammar.Derives
