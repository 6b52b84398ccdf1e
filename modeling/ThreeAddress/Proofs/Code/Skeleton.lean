import ThreeAddress.Proofs.Code.Jumps
import ThreeAddress.Proofs.Code.Temporaries

/-!
# Size and skeleton of code

How many lines the code of a tree has, and what its labels and jumps are, can be read off the tree:
both depend on its form only, and not on the operands. This is of all trees that have code, so an
expression may stand in the place of a statement.

* `skeletonOf`: the labels and jumps of some code.
* `Node.Lowerable`: the trees that have code.
* `Node.lineCount`, `Node.skeleton`: the size and the skeleton, as they are read off a tree.
* `Accords`: some code has the size and the skeleton of a tree.
* `lowerable_of_generate`, `Node.Lowerable.generate_eq`: a tree has code iff it is lowerable, and
  then the code accords with the tree.
-/

namespace ThreeAddress

open Lowering

/-! ## Skeletons -/

/-- A label or a jump. What a conditional jump depends on is left out. -/
inductive Control where
  | label (number : Nat)
  | jump (number : Nat)
  | jumpUnless (number : Nat)
  deriving DecidableEq, Repr

/-- The label or jump that an instruction is. -/
def Instruction.control? : Instruction → Option Control
  | .label number => some (.label number)
  | .jump number => some (.jump number)
  | .jumpUnless _ number => some (.jumpUnless number)
  | _ => none

/-- The labels and jumps of some code, in order. -/
def skeletonOf (code : List Instruction) : List Control := code.filterMap Instruction.control?

@[simp] theorem skeletonOf_nil : skeletonOf [] = [] := rfl

@[simp] theorem skeletonOf_append (code code' : List Instruction) :
    skeletonOf (code ++ code') = skeletonOf code ++ skeletonOf code' :=
  List.filterMap_append

@[simp] theorem skeletonOf_cons (i : Instruction) (code : List Instruction) :
    skeletonOf (i :: code) = i.control?.toList ++ skeletonOf code := by
  cases h : i.control? with
  | none => exact List.filterMap_cons_none h
  | some c => exact List.filterMap_cons_some h

/-! ## Trees -/

namespace Node

/-- The trees that have code: those of statements, and expressions in the place of statements. -/
inductive Lowerable : Node → Prop
  | expression {e : Node} : e.IsExpression → Lowerable e
  | assign {name : String} {value : Node} {declares : Option Ty} {l : Option Location} :
      value.IsExpression → Lowerable (.assign name value declares l)
  | ifThen {condition thenBranch : Node} {l : Option Location} :
      condition.IsExpression → Lowerable thenBranch → Lowerable (.ifThen condition thenBranch l)
  | ifElse {condition thenBranch elseBranch : Node} {l : Option Location} :
      condition.IsExpression → Lowerable thenBranch → Lowerable elseBranch →
      Lowerable (.ifElse condition thenBranch elseBranch l)
  | forLoop {init condition update body : Node} {l : Option Location} :
      Lowerable init → condition.IsExpression → Lowerable body → Lowerable update →
      Lowerable (.forLoop init condition update body l)
  | whileLoop {condition body : Node} {l : Option Location} :
      condition.IsExpression → Lowerable body → Lowerable (.whileLoop condition body l)
  | ret {l : Option Location} : Lowerable (.ret l)
  | retValue {value : Node} {l : Option Location} :
      value.IsExpression → Lowerable (.retValue value l)
  | block {statements : List Node} {l : Option Location} :
      (∀ s ∈ statements, Lowerable s) → Lowerable (.block statements l)

mutual

/-- How many lines the code of a tree has. -/
def lineCount : Node → Nat
  | assign _ value _ _ => value.operations + 1
  | ifThen condition thenBranch _ => condition.operations + thenBranch.lineCount + 2
  | ifElse condition thenBranch elseBranch _ =>
    condition.operations + thenBranch.lineCount + elseBranch.lineCount + 4
  | forLoop init condition update body _ =>
    init.lineCount + condition.operations + body.lineCount + update.lineCount + 4
  | whileLoop condition body _ => condition.operations + body.lineCount + 4
  | ret _ => 1
  | retValue value _ => value.operations + 1
  | block statements _ => lineCountAll statements
  | n => n.operations

/-- How many lines the code of some trees has. -/
def lineCountAll : List Node → Nat
  | [] => 0
  | s :: ss => s.lineCount + lineCountAll ss

end

mutual

/-- The labels and jumps in the code of a tree, if its first label has the given number. -/
def skeleton (number : Nat) : Node → List Control
  | ifThen _ thenBranch _ =>
    .jumpUnless number :: thenBranch.skeleton (number + 1) ++ [.label number]
  | ifElse _ thenBranch elseBranch _ =>
    .jumpUnless number :: thenBranch.skeleton (number + 1) ++
      .jump (number + 1 + thenBranch.labelCount) :: .label number ::
      elseBranch.skeleton (number + 1 + thenBranch.labelCount + 1) ++
      [.label (number + 1 + thenBranch.labelCount)]
  | forLoop init _ update body _ =>
    init.skeleton (number + 2) ++ .label number :: .jumpUnless (number + 1) ::
      body.skeleton (number + 2 + init.labelCount) ++
      update.skeleton (number + 2 + init.labelCount + body.labelCount) ++
      [.jump number, .label (number + 1)]
  | whileLoop _ body _ =>
    .label number :: .jumpUnless (number + 1) :: body.skeleton (number + 2) ++
      [.jump number, .label (number + 1)]
  | block statements _ => skeletonAll number statements
  | _ => []

/-- The labels and jumps in the code of some trees. -/
def skeletonAll (number : Nat) : List Node → List Control
  | [] => []
  | s :: ss => s.skeleton number ++ skeletonAll (number + s.labelCount) ss

end

end Node

/-! ## What has code is lowerable -/

theorem exists_of_lower_bind {α β : Type} {x : Lower α} {f : α → Lower β} {k : Counters}
    {r : β × Counters} (h : (x >>= f) k = .ok r) :
    ∃ a k', x k = .ok (a, k') ∧ f a k' = .ok r := by
  change (x k >>= fun p => f p.1 p.2) = .ok r at h
  cases hx : x k with
  | ok p =>
    rw [hx] at h
    exact ⟨p.1, p.2, rfl, h⟩
  | error e =>
    rw [hx] at h
    cases h

theorem isExpression_of_expression {n : Node} {k : Counters}
    {r : (List Instruction × Operand) × Counters} (h : expression n k = .ok r) :
    n.IsExpression := by
  induction n generalizing k r with
  | int => exact .int
  | float => exact .float
  | string => exact .string
  | var => exact .var
  | binary left op right l ihl ihr =>
    rw [expression] at h
    obtain ⟨⟨leftCode, a⟩, k₁, hl, h⟩ := exists_of_lower_bind h
    obtain ⟨⟨rightCode, b⟩, k₂, hr, -⟩ := exists_of_lower_bind h
    exact .binary (ihl hl) (ihr hr)
  | assign | ifThen | ifElse | forLoop | whileLoop | ret | retValue | block | bare => cases h

theorem lowerable_of_statement {n : Node} {k : Counters} {r : List Instruction × Counters}
    (h : statement n k = .ok r) : n.Lowerable := by
  induction n generalizing k r with
  | int => exact .expression .int
  | float => exact .expression .float
  | string => exact .expression .string
  | var => exact .expression .var
  | bare => cases h
  | binary left op right l =>
    change (expression (.binary left op right l) >>= _) k = _ at h
    obtain ⟨_, _, he, -⟩ := exists_of_lower_bind h
    exact .expression (isExpression_of_expression he)
  | assign name value declares l =>
    rw [statement] at h
    obtain ⟨_, _, he, -⟩ := exists_of_lower_bind h
    exact .assign (isExpression_of_expression he)
  | ret => exact .ret
  | retValue value l =>
    rw [statement] at h
    obtain ⟨_, _, he, -⟩ := exists_of_lower_bind h
    exact .retValue (isExpression_of_expression he)
  | ifThen condition thenBranch l _ iht =>
    rw [statement] at h
    obtain ⟨_, _, -, h⟩ := exists_of_lower_bind h
    obtain ⟨_, _, hc, h⟩ := exists_of_lower_bind h
    obtain ⟨_, _, ht, -⟩ := exists_of_lower_bind h
    exact .ifThen (isExpression_of_expression hc) (iht ht)
  | ifElse condition thenBranch elseBranch l _ iht ihe =>
    rw [statement] at h
    obtain ⟨_, _, -, h⟩ := exists_of_lower_bind h
    obtain ⟨_, _, hc, h⟩ := exists_of_lower_bind h
    obtain ⟨_, _, ht, h⟩ := exists_of_lower_bind h
    obtain ⟨_, _, -, h⟩ := exists_of_lower_bind h
    obtain ⟨_, _, he, -⟩ := exists_of_lower_bind h
    exact .ifElse (isExpression_of_expression hc) (iht ht) (ihe he)
  | whileLoop condition body l _ ihb =>
    rw [statement] at h
    obtain ⟨_, _, -, h⟩ := exists_of_lower_bind h
    obtain ⟨_, _, -, h⟩ := exists_of_lower_bind h
    obtain ⟨_, _, hc, h⟩ := exists_of_lower_bind h
    obtain ⟨_, _, hb, -⟩ := exists_of_lower_bind h
    exact .whileLoop (isExpression_of_expression hc) (ihb hb)
  | forLoop init condition update body l ihi _ ihu ihb =>
    rw [statement] at h
    obtain ⟨_, _, -, h⟩ := exists_of_lower_bind h
    obtain ⟨_, _, -, h⟩ := exists_of_lower_bind h
    obtain ⟨_, _, hi, h⟩ := exists_of_lower_bind h
    obtain ⟨_, _, hc, h⟩ := exists_of_lower_bind h
    obtain ⟨_, _, hb, h⟩ := exists_of_lower_bind h
    obtain ⟨_, _, hu, -⟩ := exists_of_lower_bind h
    exact .forLoop (ihi hi) (isExpression_of_expression hc) (ihb hb) (ihu hu)
  | block ss l ih =>
    rw [statement] at h
    refine .block ?_
    induction ss generalizing k r with
    | nil => exact fun _ hs => absurd hs List.not_mem_nil
    | cons s ss ihss =>
      rw [Lowering.sequence] at h
      obtain ⟨_, _, hs, h⟩ := exists_of_lower_bind h
      obtain ⟨_, _, hss, -⟩ := exists_of_lower_bind h
      obtain ⟨ihs, ih⟩ := List.forall_mem_cons.1 ih
      exact List.forall_mem_cons.2 ⟨ihs hs, ihss ih hss⟩

/-! ## Size and skeleton are read off the tree -/

theorem Computes.length_eq {e : Node} {t t' : Nat} {code : List Instruction} {a : Operand}
    (h : Computes e t code a t') : code.length = e.operations := by
  induction h with
  | int | float | string | var => rfl
  | binary _ _ ihl ihr =>
    rw [List.length_append, List.length_append, ihl, ihr]
    rfl

theorem Computes.skeletonOf_eq {e : Node} {t t' : Nat} {code : List Instruction} {a : Operand}
    (h : Computes e t code a t') : skeletonOf code = [] := by
  induction h with
  | int | float | string | var => rfl
  | binary _ _ ihl ihr =>
    rw [skeletonOf_append, skeletonOf_append, ihl, ihr]
    rfl

/-- The code has the size and the skeleton that are read off the tree, and the counter of labels
goes on by as many as the tree needs. -/
structure Accords (n : Node) (k : Counters) (code : List Instruction) (k' : Counters) : Prop where
  length : code.length = n.lineCount
  skeleton : skeletonOf code = n.skeleton k.labels
  labels : k'.labels = k.labels + n.labelCount

namespace Accords

variable {name : String} {value condition init update thenBranch elseBranch body s : Node}
  {ss : List Node} {declares : Option Ty} {l : Option Location} {k k₁ k₂ k₃ : Counters}
  {code test thenCode elseCode initCode bodyCode updateCode first more : List Instruction}
  {a : Operand} {t labels : Nat}

theorem expression (c : Computes value k.temps code a t) :
    Accords value k code ⟨t, k.labels⟩ := by
  have hlength := c.length_eq
  have hskeleton := c.skeletonOf_eq
  have hlabels := c.labelCount_eq
  cases c with
  | int | float | string | var | binary => exact ⟨hlength, hskeleton, by rw [hlabels]; rfl⟩

theorem assign (c : Computes value k.temps code a t) :
    Accords (.assign name value declares l) k (code ++ [.copy name a]) ⟨t, k.labels⟩ where
  length := by
    rw [List.length_append, c.length_eq]
    rfl
  skeleton := by
    rw [skeletonOf_append, c.skeletonOf_eq]
    rfl
  labels := by rw [Node.labelCount_assign, c.labelCount_eq, Nat.add_zero]

theorem retValue (c : Computes value k.temps code a t) :
    Accords (.retValue value l) k (code ++ [.retValue a]) ⟨t, k.labels⟩ where
  length := by
    rw [List.length_append, c.length_eq]
    rfl
  skeleton := by
    rw [skeletonOf_append, c.skeletonOf_eq]
    rfl
  labels := by rw [Node.labelCount_retValue, c.labelCount_eq, Nat.add_zero]

theorem ret : Accords (.ret l) k [.ret] k := ⟨rfl, rfl, rfl⟩

theorem block_nil : Accords (.block [] l) k [] k := ⟨rfl, rfl, rfl⟩

theorem block_cons (o : Accords s k first k₁) (o' : Accords (.block ss l) k₁ more k₂) :
    Accords (.block (s :: ss) l) k (first ++ more) k₂ where
  length := by
    rw [List.length_append, o.length, o'.length]
    rfl
  skeleton := by
    rw [skeletonOf_append, o.skeleton, o'.skeleton, o.labels]
    rfl
  labels := by rw [o'.labels, o.labels, Node.labelCount_block_cons, Nat.add_assoc]

theorem ifThen (c : Computes condition k.temps test a t)
    (o : Accords thenBranch ⟨t, k.labels + 1⟩ thenCode k₁) :
    Accords (.ifThen condition thenBranch l) k
      (test ++ .jumpUnless a k.labels :: thenCode ++ [.label k.labels]) k₁ where
  length := by
    simp only [List.length_append, List.length_cons, List.length_nil, c.length_eq, o.length,
      Node.lineCount]
    omega
  skeleton := by
    simp [c.skeletonOf_eq, o.skeleton, Instruction.control?, Node.skeleton]
  labels := by
    have hlabels := o.labels
    dsimp only at hlabels
    rw [Node.labelCount_ifThen, c.labelCount_eq]
    omega

theorem ifElse (c : Computes condition k.temps test a t)
    (o : Accords thenBranch ⟨t, k.labels + 1⟩ thenCode k₁)
    (o' : Accords elseBranch ⟨k₁.temps, k₁.labels + 1⟩ elseCode k₂) :
    Accords (.ifElse condition thenBranch elseBranch l) k
      (test ++ .jumpUnless a k.labels :: thenCode ++
        .jump k₁.labels :: .label k.labels :: elseCode ++ [.label k₁.labels]) k₂ where
  length := by
    simp only [List.length_append, List.length_cons, List.length_nil, c.length_eq, o.length,
      o'.length, Node.lineCount]
    omega
  skeleton := by
    simp [c.skeletonOf_eq, o.skeleton, o'.skeleton, o.labels, Instruction.control?, Node.skeleton]
  labels := by
    have hlabels := o.labels
    have hlabels' := o'.labels
    dsimp only at hlabels hlabels'
    rw [Node.labelCount_ifElse, c.labelCount_eq]
    omega

theorem whileLoop (c : Computes condition k.temps test a t)
    (o : Accords body ⟨t, k.labels + 2⟩ bodyCode k₁) :
    Accords (.whileLoop condition body l) k
      (.label k.labels :: test ++ .jumpUnless a (k.labels + 1) :: bodyCode ++
        [.jump k.labels, .label (k.labels + 1)]) k₁ where
  length := by
    simp only [List.length_append, List.length_cons, List.length_nil, c.length_eq, o.length,
      Node.lineCount]
    omega
  skeleton := by
    simp [c.skeletonOf_eq, o.skeleton, Instruction.control?, Node.skeleton]
  labels := by
    have hlabels := o.labels
    dsimp only at hlabels
    rw [Node.labelCount_whileLoop, c.labelCount_eq]
    omega

theorem forLoop (o : Accords init ⟨k.temps, k.labels + 2⟩ initCode k₁)
    (c : Computes condition k₁.temps test a t) (o' : Accords body ⟨t, k₁.labels⟩ bodyCode k₂)
    (o'' : Accords update k₂ updateCode k₃) :
    Accords (.forLoop init condition update body l) k
      (initCode ++ .label k.labels :: test ++ .jumpUnless a (k.labels + 1) :: bodyCode ++
        updateCode ++ [.jump k.labels, .label (k.labels + 1)]) k₃ where
  length := by
    simp only [List.length_append, List.length_cons, List.length_nil, c.length_eq, o.length,
      o'.length, o''.length, Node.lineCount]
    omega
  skeleton := by
    simp [c.skeletonOf_eq, o.skeleton, o'.skeleton, o''.skeleton, o.labels, o'.labels,
      Instruction.control?, Node.skeleton]
  labels := by
    have hlabels := o.labels
    have hlabels' := o'.labels
    have hlabels'' := o''.labels
    dsimp only at hlabels hlabels'
    rw [Node.labelCount_forLoop, c.labelCount_eq]
    omega

end Accords

/-- In the place of a statement, an expression has the code that computes it. -/
theorem Node.IsExpression.statement_eq {e : Node} (he : e.IsExpression) (k : Counters) :
    ∃ code k', statement e k = .ok (code, k') ∧ Accords e k code k' := by
  obtain ⟨code, a, t, h, c⟩ := computes_of_isExpression he k
  refine ⟨code, ⟨t, k.labels⟩, ?_, .expression c⟩
  have hstatement : statement e k = (expression e >>= fun r => pure r.1) k := by
    cases he with
    | int | float | string | var | binary => rfl
  rw [hstatement, lower_bind h]
  rfl

/-- **What is lowerable has code** of the size and with the skeleton that are read off it. -/
theorem Node.Lowerable.statement_eq {n : Node} (hn : n.Lowerable) (k : Counters) :
    ∃ code k', statement n k = .ok (code, k') ∧ Accords n k code k' := by
  induction hn generalizing k with
  | expression he => exact he.statement_eq k
  | assign he =>
    obtain ⟨code, a, t, h, c⟩ := computes_of_isExpression he k
    rw [statement, lower_bind h]
    exact ⟨_, _, rfl, .assign c⟩
  | ret => exact ⟨_, _, rfl, .ret⟩
  | retValue he =>
    obtain ⟨code, a, t, h, c⟩ := computes_of_isExpression he k
    rw [statement, lower_bind h]
    exact ⟨_, _, rfl, .retValue c⟩
  | @block ss l hall ih =>
    clear hall
    rw [statement]
    induction ss generalizing k with
    | nil => exact ⟨_, _, rfl, .block_nil⟩
    | cons s ss ihss =>
      obtain ⟨ihs, ih⟩ := List.forall_mem_cons.1 ih
      obtain ⟨first, k₁, h₁, o₁⟩ := ihs k
      obtain ⟨more, k₂, h₂, o₂⟩ := ihss ih k₁
      rw [Lowering.sequence, lower_bind h₁, lower_bind h₂]
      exact ⟨_, _, rfl, .block_cons o₁ o₂⟩
  | ifThen hc _ iht =>
    obtain ⟨test, a, t, h, c⟩ := computes_of_isExpression hc ⟨k.temps, k.labels + 1⟩
    obtain ⟨thenCode, k₁, h₁, o₁⟩ := iht ⟨t, k.labels + 1⟩
    refine ⟨_, _, ?_, .ifThen c o₁⟩
    rw [statement, lower_bind (newLabel_eq k), lower_bind h]
    show (statement _ >>= _) _ = _
    rw [lower_bind h₁]
    rfl
  | ifElse hc _ _ iht ihe =>
    obtain ⟨test, a, t, h, c⟩ := computes_of_isExpression hc ⟨k.temps, k.labels + 1⟩
    obtain ⟨thenCode, k₁, h₁, o₁⟩ := iht ⟨t, k.labels + 1⟩
    obtain ⟨elseCode, k₂, h₂, o₂⟩ := ihe ⟨k₁.temps, k₁.labels + 1⟩
    refine ⟨_, _, ?_, .ifElse c o₁ o₂⟩
    rw [statement, lower_bind (newLabel_eq k), lower_bind h]
    show (statement _ >>= _) _ = _
    rw [lower_bind h₁, lower_bind (newLabel_eq k₁), lower_bind h₂]
    rfl
  | whileLoop hc _ ihb =>
    obtain ⟨test, a, t, h, c⟩ := computes_of_isExpression hc ⟨k.temps, k.labels + 2⟩
    obtain ⟨bodyCode, k₁, h₁, o₁⟩ := ihb ⟨t, k.labels + 2⟩
    refine ⟨_, _, ?_, .whileLoop c o₁⟩
    rw [statement, lower_bind (newLabel_eq k), lower_bind (newLabel_eq _), lower_bind h]
    show (statement _ >>= _) _ = _
    rw [lower_bind h₁]
    rfl
  | forLoop _ hc _ _ ihi ihb ihu =>
    obtain ⟨initCode, k₁, h₁, o₁⟩ := ihi ⟨k.temps, k.labels + 2⟩
    obtain ⟨test, a, t, h, c⟩ := computes_of_isExpression hc k₁
    obtain ⟨bodyCode, k₂, h₂, o₂⟩ := ihb ⟨t, k₁.labels⟩
    obtain ⟨updateCode, k₃, h₃, o₃⟩ := ihu k₂
    refine ⟨_, _, ?_, .forLoop o₁ c o₂ o₃⟩
    rw [statement, lower_bind (newLabel_eq k), lower_bind (newLabel_eq _), lower_bind h₁,
      lower_bind h]
    show (statement _ >>= _) _ = _
    rw [lower_bind h₂, lower_bind h₃]
    rfl

/-! ## Trees on their own -/

/-- **The code of a lowerable tree**, with its size and its labels and jumps. -/
theorem Node.Lowerable.generate_eq {n : Node} (hn : n.Lowerable) :
    ∃ code, generate n = .ok code ∧ code.length = n.lineCount ∧ skeletonOf code = n.skeleton 0 := by
  obtain ⟨code, k, h, o⟩ := hn.statement_eq {}
  exact ⟨code, generate_of_emits h, o.length, o.skeleton⟩

theorem lowerable_of_generate {n : Node} {code : List Instruction} (h : generate n = .ok code) :
    n.Lowerable := by
  unfold generate StateT.run' at h
  cases hrun : statement n {} with
  | ok r => exact lowerable_of_statement hrun
  | error e =>
    rw [hrun] at h
    cases h

end ThreeAddress
