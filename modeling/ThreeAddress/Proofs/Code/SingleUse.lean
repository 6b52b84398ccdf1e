import ThreeAddress.Proofs.Code.Operands
import ThreeAddress.Proofs.Code.Temporaries

/-!
# How temporaries are used

A temporary holds the result of an operation until the instruction that works on it, and it is not
needed for anything else.

* `Node.traversal`: the operations of a tree in the order of their lines, with those of the left
  operand first, then those of the right one, then the operation itself.
* `Operation.line`: the line of an operation, given the number of its temporary.
* `Computes.lines_eq`, `Emits.lines_eq`: the operations in the code are those of the tree.
* `Balanced`: the temporary occurs as an operand as often as it is set.
* `Computes.count_texts`, `Emits.balanced`: the code of a statement is balanced, and that of an
  expression is if the operand that holds the result counts as one more.
* `UsedBehind`: the temporary is used behind its line, with only operations in between.
* `Computes.usedBehind`, `Emits.allUsed`: all temporaries are used behind their lines, those of
  expressions but for the one that holds the result.

**Theorem (`generate_uses`).** If no variable of a statement is called like a temporary, then each
of its operations sets the next temporary, which is used exactly once, behind its line and before
the next label or jump.

The instruction that uses the result of an expression stands directly behind the code of it, and
that consists of operations only.
-/

namespace ThreeAddress

open Lowering

/-! ## Operations in order -/

/-- An operation with its operands. -/
structure Operation where
  left : Node
  op : Operator
  right : Node

namespace Node

mutual

/-- The operations of a tree, each behind those of its left and of its right operand. In a loop that
counts the body comes before the update. -/
def traversal : Node → List Operation
  | assign _ value _ _ => value.traversal
  | binary left op right _ => left.traversal ++ right.traversal ++ [⟨left, op, right⟩]
  | ifThen condition thenBranch _ => condition.traversal ++ thenBranch.traversal
  | ifElse condition thenBranch elseBranch _ =>
    condition.traversal ++ thenBranch.traversal ++ elseBranch.traversal
  | forLoop init condition update body _ =>
    init.traversal ++ condition.traversal ++ body.traversal ++ update.traversal
  | whileLoop condition body _ => condition.traversal ++ body.traversal
  | retValue value _ => value.traversal
  | block statements _ => traversalAll statements
  | _ => []

/-- The operations of some trees. -/
def traversalAll : List Node → List Operation
  | [] => []
  | s :: ss => s.traversal ++ traversalAll ss

end

theorem length_traversal (n : Node) : n.traversal.length = n.operations := by
  induction n with
  | assign _ _ _ _ ih | retValue _ _ ih => exact ih
  | binary _ _ _ _ ihl ihr => simp [traversal, operations, ihl, ihr, Nat.add_assoc]
  | ifThen _ _ _ ihc iht => simp [traversal, operations, ihc, iht]
  | ifElse _ _ _ _ ihc iht ihe => simp [traversal, operations, ihc, iht, ihe, Nat.add_assoc]
  | forLoop _ _ _ _ _ ihi ihc ihu ihb =>
    simp [traversal, operations, ihi, ihc, ihu, ihb, Nat.add_assoc]
  | whileLoop _ _ _ ihc ihb => simp [traversal, operations, ihc, ihb]
  | block ss _ ih =>
    rw [traversal, operations]
    induction ss with
    | nil => rfl
    | cons s ss ihss =>
      obtain ⟨hs, hss⟩ := List.forall_mem_cons.1 ih
      rw [traversalAll, operationsAll, List.length_append, hs, ihss hss]
  | int | float | string | var | ret | bare => rfl

/-- The operand that holds the value of an expression, given the next temporary behind it: a leaf
holds its own value, and the value of an operation is in the last temporary. -/
def holder (next : Nat) : Node → Operand
  | int value _ => .int value
  | float value _ => .float value
  | string value _ => .string value
  | var name _ => .var name
  | _ => .temp (next - 1)

end Node

/-- The line of an operation, given the number of its temporary. The temporaries of its right
operand are the last ones in front of it. -/
def Operation.line (o : Operation) (number : Nat) : Instruction :=
  .binary number (o.left.holder (number - o.right.operations)) o.op (o.right.holder number)

/-- Whether an instruction is an operation; then it is neither a label nor a jump. -/
def Instruction.isOperation : Instruction → Bool
  | .binary .. => true
  | _ => false

/-- The lines of some operations whose temporaries are numbered from the given number on. -/
def operationLines (number : Nat) (os : List Operation) : List Instruction :=
  (os.zipIdx number).map fun x => x.1.line x.2

theorem operationLines_append (number : Nat) (os os' : List Operation) :
    operationLines number (os ++ os') =
      operationLines number os ++ operationLines (number + os.length) os' := by
  rw [operationLines, List.zipIdx_append, List.map_append]
  rfl

namespace Computes

variable {e : Node} {t t' : Nat} {code : List Instruction} {a : Operand}

theorem holder_eq (h : Computes e t code a t') : a = e.holder t' := by
  cases h <;> rfl

/-- **The code of an expression** is that of its operations, one behind the other. -/
theorem lines_eq (h : Computes e t code a t') : code = operationLines t e.traversal := by
  induction h with
  | int | float | string | var => rfl
  | @binary left right op l t t₁ t₂ leftCode rightCode a b cl cr ihl ihr =>
    have hlast : Operation.line ⟨left, op, right⟩ t₂ = .binary t₂ a op b := by
      rw [cl.holder_eq, cr.holder_eq, Operation.line, cr.temps_eq, Nat.add_sub_cancel]
    rw [Node.traversal, operationLines_append, operationLines_append, List.length_append,
      Node.length_traversal, Node.length_traversal, ← cl.temps_eq, ← Nat.add_assoc, ← cl.temps_eq,
      ← cr.temps_eq, ← ihl, ← ihr, ← hlast]
    rfl

theorem isOperation (h : Computes e t code a t') : ∀ i ∈ code, i.isOperation = true := by
  rw [h.lines_eq]
  exact List.forall_mem_map.2 fun _ _ => rfl

theorem filter_eq (h : Computes e t code a t') :
    code.filter Instruction.isOperation = operationLines t e.traversal := by
  rw [List.filter_eq_self.2 h.isOperation, ← h.lines_eq]

end Computes

/-- **The operations in the code of a statement** are those of the tree, in their order. -/
theorem Emits.lines_eq {s : Node} {k k' : Counters} {code : List Instruction}
    (h : Emits s k code k') :
    code.filter Instruction.isOperation = operationLines k.temps s.traversal := by
  induction h with
  | assign c | retValue c =>
    rw [List.filter_append, c.filter_eq]
    exact List.append_nil _
  | block_nil | ret => rfl
  | block_cons e₁ _ ih₁ ih₂ =>
    rw [List.filter_append, ih₁, ih₂, e₁.temps_eq, ← Node.length_traversal, ← operationLines_append]
    rfl
  | ifThen c _ ih | whileLoop c _ ih =>
    simp [Instruction.isOperation, c.filter_eq, ih, c.temps_eq, Node.traversal,
      operationLines_append, Node.length_traversal]
  | ifElse c e₁ _ ih₁ ih₂ =>
    simp [Instruction.isOperation, c.filter_eq, ih₁, ih₂, e₁.temps_eq, c.temps_eq, Node.traversal,
      operationLines_append, Node.length_traversal, Nat.add_assoc]
  | forLoop e₁ c e₂ _ ih₁ ih₂ ih₃ =>
    simp [Instruction.isOperation, c.filter_eq, ih₁, ih₂, ih₃, e₂.temps_eq, c.temps_eq, e₁.temps_eq,
      Node.traversal, operationLines_append, Node.length_traversal, Nat.add_assoc]

/-! ## Occurrences -/

/-- What an instruction works on. -/
def Instruction.operands : Instruction → List Operand
  | .binary _ left _ right => [left, right]
  | .copy _ value | .jumpUnless value _ | .retValue value => [value]
  | .jump _ | .label _ | .ret => []

/-- The texts of the operands in some code. -/
def operandTexts (code : List Instruction) : List String :=
  code.flatMap fun i => i.operands.map Operand.text

theorem ne_tempName_of_head {text : String} {c : Char} {cs : List Char} (h : text.toList = c :: cs)
    (hc : c ≠ 't') (k : Nat) : text ≠ tempName k := by
  rw [← String.ofList_toList (s := text), h]
  exact ne_tempName hc k

/-- Only temporaries are written like temporaries, if no variable is called so. -/
theorem Operand.text_eq_tempName_iff {a : Operand} {t k : Nat} (h : Settled t a) :
    a.text = tempName k ↔ a = .temp k := by
  have hdigit : ∀ {c : Char}, c.isDigit = true ∨ c = '-' → c ≠ 't' := by
    rintro c hc rfl
    exact absurd hc (by decide)
  cases a with
  | temp m => simpa [Operand.text] using ⟨tempName_injective, congrArg tempName⟩
  | var name => simpa [Operand.text] using h k
  | int n =>
    obtain ⟨c, cs, htext, hc⟩ := (Literal.writtenInt n).head
    simpa [Operand.text] using ne_tempName_of_head htext (hdigit hc) k
  | float x =>
    have hne : Literal.floatText x ≠ tempName k := by
      rcases Literal.floatText_cases x with rfl | rfl | ⟨c, cs, htext, hc⟩
      · rw [Literal.floatText_infinity]
        exact ne_tempName (c := 'i') (by decide) k
      · rw [Literal.floatText_notANumber]
        exact ne_tempName (c := 'n') (by decide) k
      · exact ne_tempName_of_head htext (hdigit hc) k
    simpa [Operand.text] using hne
  | string s =>
    have hne : Literal.stringText s ≠ tempName k :=
      ne_tempName_of_head (c := '"') (by simp [Literal.stringText]; rfl) (by decide) k
    simpa [Operand.text] using hne

/-- The temporary occurs as an operand as often as it is set. -/
def Balanced (n : Nat) (code : List Instruction) : Prop :=
  (operandTexts code).count (tempName n) = (targetsOf code).count n

section Balance

variable {code code' : List Instruction} {n : Nat}

theorem Balanced.nil : Balanced n [] := rfl

theorem Balanced.append (h : Balanced n code) (h' : Balanced n code') :
    Balanced n (code ++ code') := by
  rw [Balanced, operandTexts, List.flatMap_append, List.count_append, targetsOf_append,
    List.count_append, ← h, ← h']
  rfl

/-- An instruction that sets no temporary and works on nothing. -/
theorem Balanced.cons {i : Instruction} (hoperands : i.operands = []) (htarget : i.target? = none)
    (h : Balanced n code) : Balanced n (i :: code) := by
  rw [Balanced, operandTexts, List.flatMap_cons, hoperands, targetsOf_cons, htarget]
  exact h

/-- The code of an expression and the operand with its result are balanced together. -/
theorem Computes.count_texts {e : Node} {t t' : Nat} {a : Operand} (h : Computes e t code a t')
    (he : AvoidsTemps e) (n : Nat) :
    (operandTexts code).count (tempName n) + [a.text].count (tempName n) =
      (targetsOf code).count n := by
  have hleaf : ∀ {a : Operand}, Settled 0 a → a ≠ .temp n →
      (operandTexts []).count (tempName n) + [a.text].count (tempName n) = 0 := by
    intro a ha hne
    have htext : a.text ≠ tempName n := fun h => hne ((Operand.text_eq_tempName_iff ha).1 h)
    rw [List.count_singleton, beq_eq_false_iff_ne.2 htext]
    rfl
  induction h with
  | int | float | string => exact hleaf trivial nofun
  | var => exact hleaf (he _ (List.mem_singleton.2 rfl)) nofun
  | @binary left right op _ _ _ t₂ leftCode rightCode a b _ _ ihl ihr =>
    have hleft := ihl fun x hx => he x (List.mem_append_left _ hx)
    have hright := ihr fun x hx => he x (List.mem_append_right _ hx)
    have hname : tempName t₂ = tempName n ↔ t₂ = n := ⟨tempName_injective, congrArg tempName⟩
    have htarget : [tempName t₂].count (tempName n) = [t₂].count n := by
      simp only [List.count_singleton, beq_iff_eq, hname]
    have htexts : operandTexts (leftCode ++ rightCode ++ [.binary t₂ a op b]) =
        operandTexts leftCode ++ operandTexts rightCode ++ ([a.text] ++ [b.text]) := by
      simp [operandTexts, Instruction.operands]
    have htargets : targetsOf (leftCode ++ rightCode ++ [.binary t₂ a op b]) =
        targetsOf leftCode ++ targetsOf rightCode ++ [t₂] := by
      rw [targetsOf_append, targetsOf_append]
      rfl
    rw [htexts, htargets, Operand.text]
    simp only [List.count_append, htarget]
    omega

/-- The instruction that works on the result makes up for it. -/
theorem Computes.balanced {e : Node} {t t' : Nat} {a : Operand} {use : Instruction}
    (h : Computes e t code a t') (he : AvoidsTemps e) (huse : use.operands = [a])
    (htarget : use.target? = none) (hmore : Balanced n code') :
    Balanced n (code ++ use :: code') := by
  have htexts : operandTexts (code ++ use :: code') =
      operandTexts code ++ [a.text] ++ operandTexts code' := by
    simp [operandTexts, huse]
  rw [Balanced, htexts, List.count_append, List.count_append, h.count_texts he, targetsOf_append,
    targetsOf_cons, htarget, List.count_append, hmore]
  rfl

/-- **In the code of a statement all temporaries are balanced.** -/
theorem Emits.balanced {s : Node} {k k' : Counters} (h : Emits s k code k') (hs : AvoidsTemps s)
    (n : Nat) : Balanced n code := by
  induction h with
  | assign c => exact c.balanced (hs.of_subset (List.subset_cons_self _ _)) rfl rfl .nil
  | retValue c => exact c.balanced hs rfl rfl .nil
  | block_nil => exact .nil
  | ret => exact .cons rfl rfl .nil
  | block_cons _ _ ih₁ ih₂ =>
    exact (ih₁ (hs.of_subset (List.subset_append_left _ _))).append
      (ih₂ (hs.of_subset (List.subset_append_right _ _)))
  | ifThen c _ ih =>
    have hcondition := hs.of_subset (List.subset_append_left _ _)
    have hthen := ih (hs.of_subset (List.subset_append_right _ _))
    exact .append (c.balanced hcondition rfl rfl hthen) (.cons rfl rfl .nil)
  | ifElse c _ _ ih₁ ih₂ =>
    have hthen := ih₁ (hs.of_subset fun x hx => by simp [Node.names, hx])
    have helse := ih₂ (hs.of_subset fun x hx => by simp [Node.names, hx])
    simp only [List.append_assoc, List.cons_append]
    refine c.balanced (hs.of_subset fun x hx => by simp [Node.names, hx]) rfl rfl ?_
    exact hthen.append (.cons rfl rfl (.cons rfl rfl (helse.append (.cons rfl rfl .nil))))
  | whileLoop c _ ih =>
    have hcondition := hs.of_subset (List.subset_append_left _ _)
    have hbody := ih (hs.of_subset (List.subset_append_right _ _))
    exact .append (.cons rfl rfl (c.balanced hcondition rfl rfl hbody))
      (.cons rfl rfl (.cons rfl rfl .nil))
  | forLoop _ c _ _ ih₁ ih₂ ih₃ =>
    have hinit := ih₁ (hs.of_subset fun x hx => by simp [Node.names, hx])
    have hbody := ih₂ (hs.of_subset fun x hx => by simp [Node.names, hx])
    have hupdate := ih₃ (hs.of_subset fun x hx => by simp [Node.names, hx])
    simp only [List.append_assoc, List.cons_append]
    refine hinit.append (.cons rfl rfl (c.balanced ?_ rfl rfl ?_))
    · exact hs.of_subset fun x hx => by simp [Node.names, hx]
    · exact hbody.append (hupdate.append (.cons rfl rfl (.cons rfl rfl .nil)))

end Balance

/-! ## Uses -/

/-- The temporary is set by an operation, and an instruction behind it works on the result. Between
the two there are only operations. -/
def UsedBehind (code : List Instruction) (number : Nat) : Prop :=
  ∃ before left op right straight use after,
    code = before ++ .binary number left op right :: (straight ++ use :: after) ∧
      (∀ i ∈ straight, i.isOperation = true) ∧ .temp number ∈ use.operands

/-- All temporaries that the code sets are used behind. -/
def AllUsed (code : List Instruction) : Prop := ∀ n ∈ targetsOf code, UsedBehind code n

section Uses

variable {code code' : List Instruction} {i use : Instruction} {n : Nat}

theorem UsedBehind.append_left (h : UsedBehind code' n) (code : List Instruction) :
    UsedBehind (code ++ code') n := by
  obtain ⟨before, left, op, right, straight, use, after, rfl, hstraight, huse⟩ := h
  exact ⟨code ++ before, left, op, right, straight, use, after,
    (List.append_assoc ..).symm, hstraight, huse⟩

theorem UsedBehind.append_right (h : UsedBehind code n) (code' : List Instruction) :
    UsedBehind (code ++ code') n := by
  obtain ⟨before, left, op, right, straight, use, after, rfl, hstraight, huse⟩ := h
  exact ⟨before, left, op, right, straight, use, after ++ code', by simp, hstraight, huse⟩

/-- A temporary that is set in front of the instruction, with nothing but operations. -/
theorem UsedBehind.of_target (h : n ∈ targetsOf code) (hops : ∀ i ∈ code, i.isOperation = true)
    (huse : .temp n ∈ use.operands) : UsedBehind (code ++ [use]) n := by
  obtain ⟨i, hi, htarget⟩ := List.mem_filterMap.1 h
  obtain ⟨before, straight, rfl⟩ := List.append_of_mem hi
  cases i with
  | binary m left op right =>
    cases htarget
    exact ⟨before, left, op, right, straight, use, [], by simp,
      fun x hx => hops x (by simp [hx]), huse⟩
  | copy | jumpUnless | jump | label | ret | retValue => cases htarget

theorem AllUsed.append (h : AllUsed code) (h' : AllUsed code') : AllUsed (code ++ code') := by
  intro n hn
  rw [targetsOf_append, List.mem_append] at hn
  exact hn.elim (fun hn => (h n hn).append_right code') fun hn => (h' n hn).append_left code

theorem AllUsed.cons (hi : i.target? = none) (h : AllUsed code) : AllUsed (i :: code) := by
  intro n hn
  rw [targetsOf_cons, hi] at hn
  exact (h n hn).append_left [i]

theorem AllUsed.nil : AllUsed [] := fun _ hn => absurd hn List.not_mem_nil

/-- In the code of an expression all temporaries are used, but for the one with the result. -/
theorem Computes.usedBehind {e : Node} {t t' : Nat} {a : Operand} (h : Computes e t code a t')
    (hn : n ∈ targetsOf code) : UsedBehind code n ∨ a = .temp n := by
  induction h with
  | int | float | string | var => cases hn
  | @binary _ _ _ _ _ _ t₂ leftCode rightCode a b cl cr ihl ihr =>
    have hops : ∀ i ∈ leftCode ++ rightCode, i.isOperation = true :=
      List.forall_mem_append.2 ⟨cl.isOperation, cr.isOperation⟩
    rw [targetsOf_append, List.mem_append] at hn
    rcases hn with hn | hn
    · refine .inl ?_
      rcases List.mem_append.1 (targetsOf_append .. ▸ hn) with hn' | hn'
      · rcases ihl hn' with hused | rfl
        · exact (hused.append_right _).append_right _
        · exact .of_target hn hops (by simp [Instruction.operands])
      · rcases ihr hn' with hused | rfl
        · exact (hused.append_left _).append_right _
        · exact .of_target hn hops (by simp [Instruction.operands])
    · obtain rfl : n = t₂ := List.mem_singleton.1 hn
      exact .inr rfl

/-- The instruction that works on the result stands behind the code of the expression. -/
theorem Computes.allUsed {e : Node} {t t' : Nat} {a : Operand} (h : Computes e t code a t')
    (huse : use.operands = [a]) (htarget : use.target? = none) (hmore : AllUsed code') :
    AllUsed (code ++ use :: code') := by
  rw [List.append_cons]
  refine AllUsed.append (fun n hn => ?_) hmore
  rw [targetsOf_append, targetsOf_cons, htarget] at hn
  have hn : n ∈ targetsOf code := by simpa using hn
  rcases h.usedBehind hn with hused | rfl
  · exact hused.append_right _
  · exact .of_target hn h.isOperation (huse ▸ List.mem_singleton.2 rfl)

/-- **In the code of a statement all temporaries are used behind.** -/
theorem Emits.allUsed {s : Node} {k k' : Counters} (h : Emits s k code k') : AllUsed code := by
  induction h with
  | assign c | retValue c => exact c.allUsed rfl rfl .nil
  | block_nil => exact .nil
  | ret => exact .cons rfl .nil
  | block_cons _ _ ih₁ ih₂ => exact ih₁.append ih₂
  | ifThen c _ ih => exact .append (c.allUsed rfl rfl ih) (.cons rfl .nil)
  | ifElse c _ _ ih₁ ih₂ =>
    simp only [List.append_assoc, List.cons_append]
    exact c.allUsed rfl rfl (ih₁.append (.cons rfl (.cons rfl (ih₂.append (.cons rfl .nil)))))
  | whileLoop c _ ih =>
    exact .append (.cons rfl (c.allUsed rfl rfl ih)) (.cons rfl (.cons rfl .nil))
  | forLoop _ c _ _ ih₁ ih₂ ih₃ =>
    simp only [List.append_assoc, List.cons_append]
    refine ih₁.append (.cons rfl (c.allUsed rfl rfl (ih₂.append (ih₃.append ?_))))
    exact .cons rfl (.cons rfl .nil)

end Uses

/-- **Each temporary of a statement is set once and used once.** -/
theorem generate_uses {s : Node} (hs : s.IsStatement) (hnames : AvoidsTemps s) :
    ∃ code, generate s = .ok code ∧ targetsOf code = List.range s.operations ∧
      code.filter Instruction.isOperation = operationLines 0 s.traversal ∧
      ∀ n < s.operations, (operandTexts code).count (tempName n) = 1 ∧ UsedBehind code n := by
  obtain ⟨code, k', hcode, e⟩ := emits_of_isStatement hs {}
  have hgenerate := generate_of_emits hcode
  have htargets := targetsOf_generate hs hgenerate
  refine ⟨code, hgenerate, htargets, e.lines_eq, fun n hn => ⟨?_, ?_⟩⟩
  · rw [e.balanced hnames n, htargets]
    exact List.count_eq_one_of_mem List.nodup_range (List.mem_range.2 hn)
  · exact e.allUsed n (htargets ▸ List.mem_range.2 hn)

/-- `return (x + 1) * (2 - y);` -/
def productOfSums : Node :=
  .retValue (.binary (.binary (.var "x" none) .add (.int 1 none) none) .mul
    (.binary (.int 2 none) .sub (.var "y" none) none) none) none

theorem productOfSums_uses :
    productOfSums.IsStatement ∧ AvoidsTemps productOfSums ∧
    ∃ code, generate productOfSums = .ok code ∧
      code.filter Instruction.isOperation =
        [.binary 0 (.var "x") .add (.int 1), .binary 1 (.int 2) .sub (.var "y"),
          .binary 2 (.temp 0) .mul (.temp 1)] ∧
      ∀ n < 3, (operandTexts code).count (tempName n) = 1 ∧ UsedBehind code n := by
  have hs : productOfSums.IsStatement := .retValue (.binary (.binary .var .int) (.binary .int .var))
  have hnames : AvoidsTemps productOfSums := by
    intro x hx t
    have hx : x = "x" ∨ x = "y" := by simpa [productOfSums, Node.names] using hx
    rcases hx with rfl | rfl
    · exact @ne_tempName 'x' [] (by decide) t
    · exact @ne_tempName 'y' [] (by decide) t
  obtain ⟨code, hcode, -, hlines, huses⟩ := generate_uses hs hnames
  exact ⟨hs, hnames, code, hcode, hlines, huses⟩

end ThreeAddress
