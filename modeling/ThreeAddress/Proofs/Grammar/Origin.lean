import ThreeAddress.Proofs.Grammar.Derivation
import ThreeAddress.Proofs.Literal.Digits
import ThreeAddress.Proofs.Tree.Parts

/-!
# Where nodes come from

Each node of a tree is there for one of the tokens that the tree is derived from.

* `Node.StandsFor`: the token shows what the node is, its parts left out: the name of a variable,
  the symbol of an operator, the digits of a number, a type, a keyword or a brace.
* `Node.Stems`: the node stands at the place of the token, and for the token, if this is one that a
  source text can have.
* `Derives.Program.stem`: the nodes of a program.
-/

namespace ThreeAddress

/-! ## Tokens of one text -/

/-- The text of the tokens of a kind, where there is only one. -/
def Kind.onlyText? : Kind → Option String
  | intType => "int"
  | floatType => "float"
  | stringType => "string"
  | ifWord => "if"
  | elseWord => "else"
  | forWord => "for"
  | whileWord => "while"
  | returnWord => "return"
  | assign => "="
  | plus => "+"
  | minus => "-"
  | times => "*"
  | divide => "/"
  | equal => "=="
  | notEqual => "!="
  | less => "<"
  | greater => ">"
  | lessEqual => "<="
  | greaterEqual => ">="
  | leftParen => "("
  | rightParen => ")"
  | leftBrace => "\x7b"
  | rightBrace => "\x7d"
  | semicolon => ";"
  | comma => ","
  | identifier | intLiteral | floatLiteral | stringLiteral | unknown | endOfInput => none

namespace Token

theorem Spelling.onlyText {k : Kind} {value : List Char} {text : String} (h : Spelling k value)
    (hk : k.onlyText? = some text) : String.ofList value = text := by
  cases h with
  | word =>
    unfold Kind.ofWord at hk
    split_ifs at hk <;> cases hk <;> assumption
  | pair h =>
    unfold Kind.ofPair? at h
    split at h <;> cases h <;> cases hk <;> rfl
  | symbol h =>
    unfold Kind.ofSymbol? at h
    split at h <;> cases h <;> cases hk <;> rfl
  | int | float | string | unknown => cases hk

theorem Lexical.onlyText {t : Token} {text : String} (h : t.Lexical)
    (hk : t.kind.onlyText? = some text) : t.text = text := by
  have hspelling := h.spelling_of_ne (fun hend => by rw [hend] at hk; cases hk)
    fun hunknown => by rw [hunknown] at hk; cases hk
  have htext := hspelling.onlyText hk
  rwa [String.ofList_toList] at htext

/-- A word that names a type names one of the language. -/
theorem Lexical.ofName_mem {t : Token} (h : t.Lexical) (htype : t.kind.isType = true) :
    Ty.ofName t.text ∈ [Ty.int, Ty.float, Ty.string] := by
  cases hk : t.kind with
  | intType =>
    have htext : t.text = "int" := h.onlyText (by rw [hk]; rfl)
    rw [htext]
    decide
  | floatType =>
    have htext : t.text = "float" := h.onlyText (by rw [hk]; rfl)
    rw [htext]
    decide
  | stringType =>
    have htext : t.text = "string" := h.onlyText (by rw [hk]; rfl)
    rw [htext]
    decide
  | _ => rw [hk] at htype; cases htype

end Token

/-! ## Nodes and tokens -/

/-- The token is the one that the node stands for. -/
def Node.StandsFor : Node → Token → Prop
  | .assign name _ none _, t => t.kind = .identifier ∧ t.text = name
  | .assign _ _ (some type) _, t => t.kind.isType = true ∧ t.text = type.name
  | .binary _ op _ _, t =>
    (Grammar.isHighOperator t.kind || Grammar.isLowOperator t.kind) = true ∧ t.text = op.symbol
  | .int value _, t => t.kind = .intLiteral ∧ Literal.readInt? t.text.toList = some value
  | .float x _, t => t.kind = .floatLiteral ∧ Literal.readFloat? t.text.toList = some x
  | .string value _, t => t.kind = .stringLiteral ∧ t.text = value
  | .var name _, t => t.kind = .identifier ∧ t.text = name
  | .ifThen .., t | .ifElse .., t => t.kind = .ifWord ∧ t.text = "if"
  | .forLoop .., t => t.kind = .forWord ∧ t.text = "for"
  | .whileLoop .., t => t.kind = .whileWord ∧ t.text = "while"
  | .ret _, t | .retValue .., t => t.kind = .returnWord ∧ t.text = "return"
  | .block .., t => t.kind = .leftBrace ∧ t.text = "\x7b"
  | .bare _, _ => False

/-- The node is there for the token. -/
structure Node.Stems (n : Node) (t : Token) : Prop where
  location : n.location = t.location
  declares : ∀ {name value type l}, n = .assign name value (some type) l →
    t.kind.isType = true ∧ type = .ofName t.text
  stands : t.Lexical → n.StandsFor t

/-- The node is there for a keyword or a brace. -/
theorem Node.Stems.of_kind {n : Node} {t : Token} {k : Kind} {text : String}
    (hlocation : n.location = t.location) (hdeclares : n.isDeclaration = false) (hk : t.kind = k)
    (htext : k.onlyText? = some text) (hstands : t.kind = k ∧ t.text = text → n.StandsFor t) :
    n.Stems t where
  location := hlocation
  declares := by
    rintro _ _ _ _ rfl
    cases hdeclares
  stands ht := hstands ⟨hk, ht.onlyText (hk ▸ htext)⟩

/-- Each node of the tree is there for one of the tokens. -/
def Node.AllStem (n : Node) (ts : List Token) : Prop := ∀ m ∈ n.parts, ∃ t ∈ ts, m.Stems t

theorem Node.AllStem.mono {n : Node} {ts us : List Token} (h : n.AllStem ts) (hsub : ts ⊆ us) :
    n.AllStem us := by
  intro m hm
  obtain ⟨t, ht, hstems⟩ := h m hm
  exact ⟨t, hsub ht, hstems⟩

namespace Grammar.Derives

open Node (AllStem)

theorem Expression.stem {tier : Tier} {ts : List Token} {e : Node} (h : Expression tier ts e) :
    e.AllStem ts := by
  induction h with
  | @int t _ hk hdigits hne hlength =>
    refine List.forall_mem_singleton.2 ⟨_, List.mem_singleton.2 rfl, rfl, nofun, fun _ => ⟨hk, ?_⟩⟩
    have htext : t.text.toList ≠ [] := fun hnil => by
      rw [hnil] at hdigits
      exact hne (Option.some.inj hdigits).symm
    exact (Literal.readInt?_eq hdigits htext).trans (if_pos hlength)
  | float hk hvalue =>
    exact List.forall_mem_singleton.2
      ⟨_, List.mem_singleton.2 rfl, rfl, nofun, fun _ => ⟨hk, hvalue⟩⟩
  | string hk | var hk =>
    exact List.forall_mem_singleton.2
      ⟨_, List.mem_singleton.2 rfl, rfl, nofun, fun _ => ⟨hk, rfl⟩⟩
  | parens _ _ _ ih => exact ih.mono (by grind)
  | ofFactor _ ih | ofTerm _ ih => exact ih
  | @high ts us op left right _ hop _ ihl ihr | @low ts us op left right _ hop _ ihl ihr =>
    have hstands : op.Lexical →
        (Node.binary left (.ofSymbol op.text) right op.location).StandsFor op :=
      fun _ => ⟨by simp [hop], (Operator.symbol_ofSymbol op.text).symm⟩
    refine List.forall_mem_cons.2 ⟨⟨op, by simp, rfl, nofun, hstands⟩, ?_⟩
    exact List.forall_mem_append.2 ⟨ihl.mono (by grind), ihr.mono (by grind)⟩

theorem Update.stem {ts : List Token} {s : Node} (h : Update ts s) : s.AllStem ts := by
  cases h with
  | plain hk _ hvalue =>
    exact List.forall_mem_cons.2
      ⟨⟨_, by simp, rfl, nofun, fun _ => ⟨hk, rfl⟩⟩, hvalue.stem.mono (by grind)⟩
  | @typed type name _ _ value htype _ _ hvalue =>
    have hstands : type.Lexical →
        (Node.assign name.text value (some (.ofName type.text)) type.location).StandsFor type :=
      fun _ => ⟨htype, (Ty.name_ofName type.text).symm⟩
    refine List.forall_mem_cons.2
      ⟨⟨type, by simp, rfl, fun h => ?_, hstands⟩, hvalue.stem.mono (by grind)⟩
    cases h
    exact ⟨htype, rfl⟩

theorem Condition.stem {ts : List Token} {c : Node} (h : Condition ts c) : c.AllStem ts := by
  cases h with
  | parens _ he _ => exact he.stem.mono (by grind)

mutual

theorem Statement.stem {ts : List Token} {s : Node} : Statement ts s → s.AllStem ts
  | .assignment h _ => h.stem.mono (by grind)
  | .block h => h.stem
  | .ifThen hk hc hb => by
    refine List.forall_mem_cons.2 ⟨⟨_, List.mem_cons_self, .of_kind rfl rfl hk rfl id⟩, ?_⟩
    exact List.forall_mem_append.2 ⟨hc.stem.mono (by grind), hb.stem.mono (by grind)⟩
  | .ifElse hk hc hb _ hb' => by
    refine List.forall_mem_cons.2 ⟨⟨_, List.mem_cons_self, .of_kind rfl rfl hk rfl id⟩, ?_⟩
    refine List.forall_mem_append.2 ⟨hc.stem.mono (by grind), ?_⟩
    exact List.forall_mem_append.2 ⟨hb.stem.mono (by grind), hb'.stem.mono (by grind)⟩
  | .forLoop hk _ hi _ hc _ hu _ hb => by
    refine List.forall_mem_cons.2 ⟨⟨_, List.mem_cons_self, .of_kind rfl rfl hk rfl id⟩, ?_⟩
    refine List.forall_mem_append.2 ⟨hi.stem.mono (by grind), ?_⟩
    refine List.forall_mem_append.2 ⟨hc.stem.mono (by grind), ?_⟩
    exact List.forall_mem_append.2 ⟨hu.stem.mono (by grind), hb.stem.mono (by grind)⟩
  | .whileLoop hk hc hb => by
    refine List.forall_mem_cons.2 ⟨⟨_, List.mem_cons_self, .of_kind rfl rfl hk rfl id⟩, ?_⟩
    exact List.forall_mem_append.2 ⟨hc.stem.mono (by grind), hb.stem.mono (by grind)⟩
  | .ret hk _ =>
    List.forall_mem_singleton.2 ⟨_, List.mem_cons_self, .of_kind rfl rfl hk rfl id⟩
  | .retValue hk h _ => by
    refine List.forall_mem_cons.2 ⟨⟨_, List.mem_cons_self, .of_kind rfl rfl hk rfl id⟩, ?_⟩
    exact h.stem.mono (by grind)

theorem Block.stem {ts : List Token} {s : Node} : Block ts s → s.AllStem ts
  | .braces hk h _ => by
    refine List.forall_mem_cons.2
      ⟨⟨_, List.mem_cons_self, .of_kind rfl rfl hk rfl id⟩, fun m hm => ?_⟩
    obtain ⟨s, hs, hm⟩ := Node.mem_partsAll.1 hm
    exact (h.stem s hs).mono (by grind) m hm

/-- **Each node of a program is there for one of its tokens.** -/
theorem Program.stem {ts : List Token} {ss : List Node} :
    Program ts ss → ∀ s ∈ ss, s.AllStem ts
  | .nil => fun _ hs => absurd hs List.not_mem_nil
  | .cons h h' => List.forall_mem_cons.2
    ⟨h.stem.mono (by grind), fun s hs => (h'.stem s hs).mono (by grind)⟩

end

end Grammar.Derives

end ThreeAddress
