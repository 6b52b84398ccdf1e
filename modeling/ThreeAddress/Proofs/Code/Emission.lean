import Mathlib.Tactic.SplitIfs
import ThreeAddress.Code.Lowering
import ThreeAddress.Proofs.Code.Machine

/-!
# What lowering emits

The code of a tree as a relation between the tree, the counters before, the code, and the counters
after. The relations follow the trees, one rule a kind, and leave out how lowering keeps its
counters; proofs about emitted code are inductions on them.

* `Computes`: the code of an expression, and the operand that holds its value.
* `Emits`: the code of a statement.
* `emits_of_isStatement`: every statement has code, and it is the code that the relation gives.
* `Emits.count_labelsOf`: a statement sets the labels that its counters count, each of them once.
-/

namespace ThreeAddress

open Lowering

/-! ## Relations -/

/-- The code of an expression whose first temporary has the first number; the last number is that
of the next temporary behind it. -/
inductive Computes : Node → Nat → List Instruction → Operand → Nat → Prop
  | int {n : Int} {l : Option Location} {t : Nat} : Computes (.int n l) t [] (.int n) t
  | float {x : Float} {l : Option Location} {t : Nat} : Computes (.float x l) t [] (.float x) t
  | string {s : String} {l : Option Location} {t : Nat} : Computes (.string s l) t [] (.string s) t
  | var {name : String} {l : Option Location} {t : Nat} : Computes (.var name l) t [] (.var name) t
  | binary {left right : Node} {op : Operator} {l : Option Location} {t t₁ t₂ : Nat}
      {leftCode rightCode : List Instruction} {a b : Operand} :
      Computes left t leftCode a t₁ → Computes right t₁ rightCode b t₂ →
      Computes (.binary left op right l) t (leftCode ++ rightCode ++ [.binary t₂ a op b]) (.temp t₂)
        (t₂ + 1)

/-- The code of a statement, with the counters before and after. -/
inductive Emits : Node → Counters → List Instruction → Counters → Prop
  | assign {name : String} {value : Node} {declares : Option Ty} {l : Option Location}
      {k : Counters} {code : List Instruction} {a : Operand} {t : Nat} :
      Computes value k.temps code a t →
      Emits (.assign name value declares l) k (code ++ [.copy name a]) ⟨t, k.labels⟩
  | block_nil {l : Option Location} {k : Counters} : Emits (.block [] l) k [] k
  | block_cons {s : Node} {ss : List Node} {l : Option Location} {k k₁ k₂ : Counters}
      {first more : List Instruction} :
      Emits s k first k₁ → Emits (.block ss l) k₁ more k₂ →
      Emits (.block (s :: ss) l) k (first ++ more) k₂
  | ifThen {condition thenBranch : Node} {l : Option Location} {k k₁ : Counters}
      {test thenCode : List Instruction} {a : Operand} {t : Nat} :
      Computes condition k.temps test a t → Emits thenBranch ⟨t, k.labels + 1⟩ thenCode k₁ →
      Emits (.ifThen condition thenBranch l) k
        (test ++ .jumpUnless a k.labels :: thenCode ++ [.label k.labels]) k₁
  | ifElse {condition thenBranch elseBranch : Node} {l : Option Location} {k k₁ k₂ : Counters}
      {test thenCode elseCode : List Instruction} {a : Operand} {t : Nat} :
      Computes condition k.temps test a t → Emits thenBranch ⟨t, k.labels + 1⟩ thenCode k₁ →
      Emits elseBranch ⟨k₁.temps, k₁.labels + 1⟩ elseCode k₂ →
      Emits (.ifElse condition thenBranch elseBranch l) k
        (test ++ .jumpUnless a k.labels :: thenCode ++
          .jump k₁.labels :: .label k.labels :: elseCode ++ [.label k₁.labels]) k₂
  | whileLoop {condition body : Node} {l : Option Location} {k k₁ : Counters}
      {test bodyCode : List Instruction} {a : Operand} {t : Nat} :
      Computes condition k.temps test a t → Emits body ⟨t, k.labels + 2⟩ bodyCode k₁ →
      Emits (.whileLoop condition body l) k
        (.label k.labels :: test ++ .jumpUnless a (k.labels + 1) :: bodyCode ++
          [.jump k.labels, .label (k.labels + 1)]) k₁
  | forLoop {init condition update body : Node} {l : Option Location} {k k₁ k₂ k₃ : Counters}
      {initCode test bodyCode updateCode : List Instruction} {a : Operand} {t : Nat} :
      Emits init ⟨k.temps, k.labels + 2⟩ initCode k₁ → Computes condition k₁.temps test a t →
      Emits body ⟨t, k₁.labels⟩ bodyCode k₂ → Emits update k₂ updateCode k₃ →
      Emits (.forLoop init condition update body l) k
        (initCode ++ .label k.labels :: test ++ .jumpUnless a (k.labels + 1) :: bodyCode ++
          updateCode ++ [.jump k.labels, .label (k.labels + 1)]) k₃
  | ret {l : Option Location} {k : Counters} : Emits (.ret l) k [.ret] k
  | retValue {value : Node} {l : Option Location} {k : Counters} {code : List Instruction}
      {a : Operand} {t : Nat} :
      Computes value k.temps code a t →
      Emits (.retValue value l) k (code ++ [.retValue a]) ⟨t, k.labels⟩

/-! ## Lowering follows the relations -/

/-- A step of lowering in front of others. -/
theorem lower_bind {α β : Type} {x : Lower α} {f : α → Lower β} {k k' : Counters} {a : α}
    (h : x k = .ok (a, k')) : (x >>= f) k = f a k' := by
  show (x k >>= fun p => f p.1 p.2) = f a k'
  rw [h]
  rfl

theorem newLabel_eq (k : Counters) : newLabel k = .ok (k.labels, ⟨k.temps, k.labels + 1⟩) := rfl

theorem computes_of_isExpression {e : Node} (he : e.IsExpression) (k : Counters) :
    ∃ code a t, expression e k = .ok ((code, a), ⟨t, k.labels⟩) ∧ Computes e k.temps code a t := by
  induction he generalizing k with
  | int => exact ⟨_, _, _, rfl, .int⟩
  | float => exact ⟨_, _, _, rfl, .float⟩
  | string => exact ⟨_, _, _, rfl, .string⟩
  | var => exact ⟨_, _, _, rfl, .var⟩
  | binary _ _ ihl ihr =>
    obtain ⟨leftCode, a, t₁, hl, cl⟩ := ihl k
    obtain ⟨rightCode, b, t₂, hr, cr⟩ := ihr ⟨t₁, k.labels⟩
    refine ⟨_, _, _, ?_, .binary cl cr⟩
    rw [expression, lower_bind hl]
    show (expression _ >>= _) _ = _
    rw [lower_bind hr]
    rfl

/-- **Lowering is complete.** Every statement has code, and it is the code of the relation. -/
theorem emits_of_isStatement {s : Node} (hs : s.IsStatement) (k : Counters) :
    ∃ code k', statement s k = .ok (code, k') ∧ Emits s k code k' := by
  induction hs generalizing k with
  | assign he =>
    obtain ⟨code, a, t, h, c⟩ := computes_of_isExpression he k
    refine ⟨_, _, ?_, .assign c⟩
    rw [statement, lower_bind h]
    rfl
  | ret => exact ⟨_, _, rfl, .ret⟩
  | retValue he =>
    obtain ⟨code, a, t, h, c⟩ := computes_of_isExpression he k
    refine ⟨_, _, ?_, .retValue c⟩
    rw [statement, lower_bind h]
    rfl
  | @block ss l hall ih =>
    clear hall
    rw [statement]
    induction ss generalizing k with
    | nil => exact ⟨_, _, rfl, .block_nil⟩
    | cons s ss ihss =>
      obtain ⟨hs, hss⟩ := List.forall_mem_cons.1 ih
      obtain ⟨first, k₁, h₁, e₁⟩ := hs k
      obtain ⟨more, k₂, h₂, e₂⟩ := ihss hss k₁
      refine ⟨_, _, ?_, .block_cons e₁ e₂⟩
      rw [Lowering.sequence, lower_bind h₁, lower_bind h₂]
      rfl
  | ifThen hc _ iht =>
    obtain ⟨test, a, t, h, c⟩ := computes_of_isExpression hc ⟨k.temps, k.labels + 1⟩
    obtain ⟨thenCode, k₁, h₁, e₁⟩ := iht ⟨t, k.labels + 1⟩
    refine ⟨_, _, ?_, .ifThen c e₁⟩
    rw [statement, lower_bind (newLabel_eq k), lower_bind h]
    show (statement _ >>= _) _ = _
    rw [lower_bind h₁]
    rfl
  | ifElse hc _ _ iht ihe =>
    obtain ⟨test, a, t, h, c⟩ := computes_of_isExpression hc ⟨k.temps, k.labels + 1⟩
    obtain ⟨thenCode, k₁, h₁, e₁⟩ := iht ⟨t, k.labels + 1⟩
    obtain ⟨elseCode, k₂, h₂, e₂⟩ := ihe ⟨k₁.temps, k₁.labels + 1⟩
    refine ⟨_, _, ?_, .ifElse c e₁ e₂⟩
    rw [statement, lower_bind (newLabel_eq k), lower_bind h]
    show (statement _ >>= _) _ = _
    rw [lower_bind h₁, lower_bind (newLabel_eq k₁), lower_bind h₂]
    rfl
  | whileLoop hc _ ihb =>
    obtain ⟨test, a, t, h, c⟩ := computes_of_isExpression hc ⟨k.temps, k.labels + 2⟩
    obtain ⟨bodyCode, k₁, h₁, e₁⟩ := ihb ⟨t, k.labels + 2⟩
    refine ⟨_, _, ?_, .whileLoop c e₁⟩
    rw [statement, lower_bind (newLabel_eq k), lower_bind (newLabel_eq _), lower_bind h]
    show (statement _ >>= _) _ = _
    rw [lower_bind h₁]
    rfl
  | forLoop _ hc _ _ ihi ihu ihb =>
    obtain ⟨initCode, k₁, h₁, e₁⟩ := ihi ⟨k.temps, k.labels + 2⟩
    obtain ⟨test, a, t, h, c⟩ := computes_of_isExpression hc k₁
    obtain ⟨bodyCode, k₂, h₂, e₂⟩ := ihb ⟨t, k₁.labels⟩
    obtain ⟨updateCode, k₃, h₃, e₃⟩ := ihu k₂
    refine ⟨_, _, ?_, .forLoop e₁ c e₂ e₃⟩
    rw [statement, lower_bind (newLabel_eq k), lower_bind (newLabel_eq _), lower_bind h₁,
      lower_bind h]
    show (statement _ >>= _) _ = _
    rw [lower_bind h₂, lower_bind h₃]
    rfl

/-! ## Counters and labels -/

theorem Computes.le {e : Node} {t t' : Nat} {code : List Instruction} {a : Operand}
    (h : Computes e t code a t') : t ≤ t' := by
  induction h with
  | int | float | string | var => exact Nat.le_refl _
  | binary _ _ ihl ihr => omega

/-- Code of expressions sets no label. -/
theorem Computes.count_labelsOf {e : Node} {t t' : Nat} {code : List Instruction} {a : Operand}
    (h : Computes e t code a t') (n : Nat) : (labelsOf code).count n = 0 := by
  induction h with
  | int | float | string | var => rfl
  | binary _ _ ihl ihr =>
    rw [count_labelsOf_append, count_labelsOf_append, ihl, ihr]
    rfl

theorem Emits.labels_le {s : Node} {k k' : Counters} {code : List Instruction}
    (h : Emits s k code k') : k.labels ≤ k'.labels := by
  induction h with
  | assign | block_nil | ret | retValue => exact Nat.le_refl _
  | block_cons _ _ ih₁ ih₂ => exact Nat.le_trans ih₁ ih₂
  | ifThen _ _ ih => exact Nat.le_of_succ_le ih
  | ifElse _ _ _ ih₁ ih₂ => simp only at ih₁ ih₂; omega
  | whileLoop _ _ ih => simp only at ih; omega
  | forLoop _ _ _ _ ih₁ ih₂ ih₃ => simp only at ih₁ ih₂; omega

/-- **A statement sets the labels that its counters count, each of them once.** The labels that it
takes for itself lie between those of its parts. -/
theorem Emits.count_labelsOf {s : Node} {k k' : Counters} {code : List Instruction}
    (h : Emits s k code k') (n : Nat) :
    (labelsOf code).count n = if k.labels ≤ n ∧ n < k'.labels then 1 else 0 := by
  induction h with
  | assign c | retValue c =>
    rw [count_labelsOf_append, c.count_labelsOf, if_neg fun hn => Nat.not_lt.2 hn.1 hn.2]
    rfl
  | block_nil | ret =>
    rw [if_neg fun hn => Nat.not_lt.2 hn.1 hn.2]
    rfl
  | block_cons e₁ e₂ ih₁ ih₂ =>
    have h₁ := e₁.labels_le
    have h₂ := e₂.labels_le
    rw [count_labelsOf_append, ih₁, ih₂]
    split_ifs <;> omega
  | ifThen c e ih =>
    have h₁ := e.labels_le
    simp only [count_labelsOf_append, count_labelsOf_cons, c.count_labelsOf, ih, labelsOf_nil,
      List.count_nil, Instruction.label?, Option.some.injEq, reduceCtorEq, if_false] at h₁ ⊢
    split_ifs <;> omega
  | ifElse c e₁ e₂ ih₁ ih₂ =>
    have h₁ := e₁.labels_le
    have h₂ := e₂.labels_le
    simp only [count_labelsOf_append, count_labelsOf_cons, c.count_labelsOf, ih₁, ih₂, labelsOf_nil,
      List.count_nil, Instruction.label?, Option.some.injEq, reduceCtorEq, if_false] at h₁ h₂ ⊢
    split_ifs <;> omega
  | whileLoop c e ih =>
    have h₁ := e.labels_le
    simp only [count_labelsOf_append, count_labelsOf_cons, c.count_labelsOf, ih, labelsOf_nil,
      List.count_nil, Instruction.label?, Option.some.injEq, reduceCtorEq, if_false] at h₁ ⊢
    split_ifs <;> omega
  | forLoop e₁ c e₂ e₃ ih₁ ih₂ ih₃ =>
    have h₁ := e₁.labels_le
    have h₂ := e₂.labels_le
    have h₃ := e₃.labels_le
    simp only [count_labelsOf_append, count_labelsOf_cons, c.count_labelsOf, ih₁, ih₂, ih₃,
      labelsOf_nil, List.count_nil, Instruction.label?, Option.some.injEq, reduceCtorEq,
      if_false] at h₁ h₂ ⊢
    split_ifs <;> omega

theorem Emits.nodup_labelsOf {s : Node} {k k' : Counters} {code : List Instruction}
    (h : Emits s k code k') : (labelsOf code).Nodup := by
  rw [List.nodup_iff_count]
  intro n
  rw [h.count_labelsOf]
  split_ifs <;> omega

end ThreeAddress
