import ThreeAddress.Grammar.Expression
import ThreeAddress.Proofs.Token.Spelling
import ThreeAddress.Proofs.Tree.Shape

/-!
# Parts of trees

The nodes that a tree consists of, and how the names, strings and operators in them are spelled if
they come from a source text.

* `Node.parts`, `Node.partsAll`: the nodes of a tree and of some trees.
* `Node.Spelled`: a name is a letter with letters and digits behind it, a string has no quote in it,
  and an operator is one of the language.
-/

namespace ThreeAddress

/-! ## Parts -/

namespace Node

mutual

/-- The nodes of a tree, each before its parts. -/
@[grind =] def parts : Node → List Node
  | assign name value declares l => assign name value declares l :: value.parts
  | binary left op right l => binary left op right l :: (left.parts ++ right.parts)
  | ifThen condition thenBranch l =>
    ifThen condition thenBranch l :: (condition.parts ++ thenBranch.parts)
  | ifElse condition thenBranch elseBranch l =>
    ifElse condition thenBranch elseBranch l ::
      (condition.parts ++ (thenBranch.parts ++ elseBranch.parts))
  | forLoop init condition update body l =>
    forLoop init condition update body l ::
      (init.parts ++ (condition.parts ++ (update.parts ++ body.parts)))
  | whileLoop condition body l => whileLoop condition body l :: (condition.parts ++ body.parts)
  | retValue value l => retValue value l :: value.parts
  | block statements l => block statements l :: partsAll statements
  | n => [n]

/-- The nodes of some trees. -/
@[grind =] def partsAll : List Node → List Node
  | [] => []
  | s :: ss => s.parts ++ partsAll ss

end

theorem mem_parts_self (n : Node) : n ∈ n.parts := by
  cases n <;> exact List.mem_cons_self

theorem mem_partsAll {ss : List Node} {n : Node} : n ∈ partsAll ss ↔ ∃ s ∈ ss, n ∈ s.parts := by
  induction ss with
  | nil => simp [partsAll]
  | cons s ss ih => simp only [partsAll, List.mem_append, ih, List.mem_cons, exists_eq_or_imp]

/-! A property of all nodes of a tree is one of the tree itself and of all nodes of its parts. -/

section ForallParts

variable {P : Node → Prop} {left right condition thenBranch elseBranch init update body : Node}
  {op : Operator} {ss : List Node} {l : Option Location}

theorem forall_partsAll : (∀ n ∈ partsAll ss, P n) ↔ ∀ s ∈ ss, ∀ n ∈ s.parts, P n := by
  simp only [mem_partsAll]
  exact ⟨fun h s hs n hn => h n ⟨s, hs, hn⟩, fun h n ⟨s, hs, hn⟩ => h s hs n hn⟩

theorem forall_parts_binary : (∀ n ∈ (binary left op right l).parts, P n) ↔
    P (binary left op right l) ∧ (∀ n ∈ left.parts, P n) ∧ ∀ n ∈ right.parts, P n := by
  rw [parts, List.forall_mem_cons, List.forall_mem_append]

theorem forall_parts_ifThen : (∀ n ∈ (ifThen condition thenBranch l).parts, P n) ↔
    P (ifThen condition thenBranch l) ∧ (∀ n ∈ condition.parts, P n) ∧
      ∀ n ∈ thenBranch.parts, P n := by
  rw [parts, List.forall_mem_cons, List.forall_mem_append]

theorem forall_parts_ifElse : (∀ n ∈ (ifElse condition thenBranch elseBranch l).parts, P n) ↔
    P (ifElse condition thenBranch elseBranch l) ∧ (∀ n ∈ condition.parts, P n) ∧
      (∀ n ∈ thenBranch.parts, P n) ∧ ∀ n ∈ elseBranch.parts, P n := by
  rw [parts, List.forall_mem_cons, List.forall_mem_append, List.forall_mem_append]

theorem forall_parts_forLoop : (∀ n ∈ (forLoop init condition update body l).parts, P n) ↔
    P (forLoop init condition update body l) ∧ (∀ n ∈ init.parts, P n) ∧
      (∀ n ∈ condition.parts, P n) ∧ (∀ n ∈ update.parts, P n) ∧ ∀ n ∈ body.parts, P n := by
  rw [parts, List.forall_mem_cons, List.forall_mem_append, List.forall_mem_append,
    List.forall_mem_append]

theorem forall_parts_whileLoop : (∀ n ∈ (whileLoop condition body l).parts, P n) ↔
    P (whileLoop condition body l) ∧ (∀ n ∈ condition.parts, P n) ∧ ∀ n ∈ body.parts, P n := by
  rw [parts, List.forall_mem_cons, List.forall_mem_append]

theorem forall_parts_block : (∀ n ∈ (block ss l).parts, P n) ↔
    P (block ss l) ∧ ∀ s ∈ ss, ∀ n ∈ s.parts, P n := by
  rw [parts, List.forall_mem_cons, forall_partsAll]

end ForallParts

/-- An expression consists of expressions. -/
theorem IsExpression.parts {e : Node} (he : e.IsExpression) :
    ∀ m ∈ e.parts, m.IsExpression := by
  induction he with
  | int => exact List.forall_mem_singleton.2 .int
  | float => exact List.forall_mem_singleton.2 .float
  | string => exact List.forall_mem_singleton.2 .string
  | var => exact List.forall_mem_singleton.2 .var
  | binary hl hr ihl ihr =>
    exact List.forall_mem_cons.2 ⟨.binary hl hr, List.forall_mem_append.2 ⟨ihl, ihr⟩⟩

/-- A statement consists of statements and expressions. -/
theorem IsStatement.parts {n : Node} (hn : n.IsStatement) :
    ∀ m ∈ n.parts, m.IsExpression ∨ m.IsStatement := by
  have hexpression : ∀ {e : Node}, e.IsExpression →
      ∀ m ∈ e.parts, m.IsExpression ∨ m.IsStatement := fun he m hm => .inl (he.parts m hm)
  induction hn with
  | assign he => exact List.forall_mem_cons.2 ⟨.inr (.assign he), hexpression he⟩
  | ret => exact List.forall_mem_singleton.2 (.inr .ret)
  | retValue he => exact List.forall_mem_cons.2 ⟨.inr (.retValue he), hexpression he⟩
  | block hss ih =>
    refine List.forall_mem_cons.2 ⟨.inr (.block hss), fun m hm => ?_⟩
    obtain ⟨s, hs, hm⟩ := mem_partsAll.1 hm
    exact ih s hs m hm
  | ifThen hc ht iht =>
    refine List.forall_mem_cons.2 ⟨.inr (.ifThen hc ht), ?_⟩
    exact List.forall_mem_append.2 ⟨hexpression hc, iht⟩
  | ifElse hc ht he iht ihe =>
    refine List.forall_mem_cons.2 ⟨.inr (.ifElse hc ht he), ?_⟩
    exact List.forall_mem_append.2 ⟨hexpression hc, List.forall_mem_append.2 ⟨iht, ihe⟩⟩
  | forLoop hi hc hu hb ihi ihu ihb =>
    refine List.forall_mem_cons.2 ⟨.inr (.forLoop hi hc hu hb), ?_⟩
    refine List.forall_mem_append.2 ⟨ihi, List.forall_mem_append.2 ⟨hexpression hc, ?_⟩⟩
    exact List.forall_mem_append.2 ⟨ihu, ihb⟩
  | whileLoop hc hb ihb =>
    refine List.forall_mem_cons.2 ⟨.inr (.whileLoop hc hb), ?_⟩
    exact List.forall_mem_append.2 ⟨hexpression hc, ihb⟩

end Node

/-! ## Spelling -/

/-- A text that can be a name: a letter with letters and digits behind it. -/
def IsName (text : String) : Prop :=
  ∃ c cs, text.toList = c :: cs ∧ Text.isLetter c = true ∧
    ∀ d ∈ cs, Token.continuesName d = true

theorem IsName.continuesName {name : String} (h : IsName name) :
    ∀ c ∈ name.toList, Token.continuesName c = true := by
  obtain ⟨c, cs, htext, hc, hcs⟩ := h
  rw [htext]
  exact List.forall_mem_cons.2 ⟨by rw [Token.continuesName, hc, Bool.true_or], hcs⟩

theorem Operator.ofSymbol_symbol : ∀ op ∈ known, ofSymbol op.symbol = op := by decide

/-- The node is spelled as in a source text. -/
@[grind =] def Node.Spelled : Node → Prop
  | assign name .. | var name _ => IsName name
  | string value _ => '"' ∉ value.toList
  | binary _ op .. => op ∈ Operator.known
  | _ => True

/-- All nodes of the tree are spelled as in a source text. -/
def Node.AllSpelled (n : Node) : Prop := ∀ m ∈ n.parts, m.Spelled

namespace Node.AllSpelled

variable {name : String} {value left right condition thenBranch elseBranch init update body : Node}
  {declares : Option Ty} {op : Operator} {l : Option Location} {statements : List Node}

theorem assign : (Node.assign name value declares l).AllSpelled ↔
    IsName name ∧ value.AllSpelled := by
  simp only [AllSpelled, parts, List.forall_mem_cons, Spelled]

theorem binary : (Node.binary left op right l).AllSpelled ↔
    op ∈ Operator.known ∧ left.AllSpelled ∧ right.AllSpelled :=
  forall_parts_binary

theorem ifThen : (Node.ifThen condition thenBranch l).AllSpelled ↔
    condition.AllSpelled ∧ thenBranch.AllSpelled := by
  simp only [AllSpelled, forall_parts_ifThen, Spelled, true_and]

theorem ifElse : (Node.ifElse condition thenBranch elseBranch l).AllSpelled ↔
    condition.AllSpelled ∧ thenBranch.AllSpelled ∧ elseBranch.AllSpelled := by
  simp only [AllSpelled, forall_parts_ifElse, Spelled, true_and]

theorem forLoop : (Node.forLoop init condition update body l).AllSpelled ↔
    init.AllSpelled ∧ condition.AllSpelled ∧ update.AllSpelled ∧ body.AllSpelled := by
  simp only [AllSpelled, forall_parts_forLoop, Spelled, true_and]

theorem whileLoop : (Node.whileLoop condition body l).AllSpelled ↔
    condition.AllSpelled ∧ body.AllSpelled := by
  simp only [AllSpelled, forall_parts_whileLoop, Spelled, true_and]

theorem retValue : (Node.retValue value l).AllSpelled ↔ value.AllSpelled := by
  simp only [AllSpelled, parts, List.forall_mem_cons, Spelled, true_and]

theorem block : (Node.block statements l).AllSpelled ↔ ∀ s ∈ statements, s.AllSpelled := by
  simp only [AllSpelled, forall_parts_block, Spelled, true_and]

/-- A node without parts. -/
theorem leaf {n : Node} (hparts : n.parts = [n]) : n.AllSpelled ↔ n.Spelled := by
  rw [AllSpelled, hparts, List.forall_mem_singleton]

end Node.AllSpelled

/-! ## Tokens -/

namespace Token

theorem Spelling.name {cs : List Char} (h : Spelling .identifier cs) :
    IsName (String.ofList cs) := by
  generalize hk : Kind.identifier = k at h
  cases h with
  | word hc hcs => exact ⟨_, _, String.toList_ofList, hc, hcs⟩
  | pair h =>
    subst hk
    exact absurd h (Kind.ofPair?_ne rfl _ _)
  | symbol h =>
    subst hk
    exact absurd h (Kind.ofSymbol?_ne rfl _)
  | int | float | string | unknown => cases hk

theorem Spelling.unquoted {cs : List Char} (h : Spelling .stringLiteral cs) : '"' ∉ cs := by
  generalize hk : Kind.stringLiteral = k at h
  cases h with
  | word => exact absurd hk.symm (Kind.ofWord_ne rfl _)
  | pair h =>
    subst hk
    exact absurd h (Kind.ofPair?_ne rfl _ _)
  | symbol h =>
    subst hk
    exact absurd h (Kind.ofSymbol?_ne rfl _)
  | string h => exact h
  | int | float | unknown => cases hk

/-- A token between two operands is an operator of the language. -/
theorem Spelling.operator {k : Kind} {cs : List Char} (h : Spelling k cs)
    (hk : Grammar.isLowOperator k = true ∨ Grammar.isHighOperator k = true) :
    Operator.ofSymbol (String.ofList cs) ∈ Operator.known := by
  cases h with
  | word =>
    unfold Kind.ofWord at hk
    split_ifs at hk <;> simp [Grammar.isLowOperator, Grammar.isHighOperator] at hk
  | pair h =>
    unfold Kind.ofPair? at h
    split at h
    all_goals first | decide | cases h
  | symbol h =>
    unfold Kind.ofSymbol? at h
    split at h
    all_goals cases h
    all_goals first | decide | simp [Grammar.isLowOperator, Grammar.isHighOperator] at hk
  | int | float | string | unknown => simp [Grammar.isLowOperator, Grammar.isHighOperator] at hk

namespace Lexical

variable {t : Token}

theorem spelling_of_ne (h : t.Lexical) (hend : t.kind ≠ .endOfInput)
    (hunknown : t.kind ≠ .unknown) : Spelling t.kind t.text.toList := by
  rcases h with h | ⟨h, -⟩ | ⟨h, -⟩
  · exact h
  · exact absurd h hend
  · exact absurd h hunknown

theorem name (h : t.Lexical) (hk : t.kind = .identifier) : IsName t.text := by
  have hspelling := h.spelling_of_ne (by rw [hk]; nofun) (by rw [hk]; nofun)
  rw [hk] at hspelling
  have hname := hspelling.name
  rwa [String.ofList_toList] at hname

theorem unquoted (h : t.Lexical) (hk : t.kind = .stringLiteral) : '"' ∉ t.text.toList := by
  have hspelling := h.spelling_of_ne (by rw [hk]; nofun) (by rw [hk]; nofun)
  rw [hk] at hspelling
  exact hspelling.unquoted

theorem operator (h : t.Lexical)
    (hk : Grammar.isLowOperator t.kind = true ∨ Grammar.isHighOperator t.kind = true) :
    Operator.ofSymbol t.text ∈ Operator.known := by
  have hspelling : Spelling t.kind t.text.toList := by
    refine h.spelling_of_ne (fun h => ?_) fun h => ?_
    · rw [h] at hk
      rcases hk with hk | hk <;> cases hk
    · rw [h] at hk
      rcases hk with hk | hk <;> cases hk
  have hknown := hspelling.operator hk
  rwa [String.ofList_toList] at hknown

end Lexical

end Token

end ThreeAddress
