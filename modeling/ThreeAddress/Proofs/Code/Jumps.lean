import Mathlib.Algebra.GroupWithZero.Nat
import Mathlib.Data.List.Perm.Basic
import ThreeAddress.Proofs.Code.Simulation
import ThreeAddress.Proofs.Tree.Parts

/-!
# Labels and jumps

The control flow of the code of a statement is closed: its labels are numbered without a gap, and
each of them has the one jump that it was taken for.

* `jumpsOf`: the labels that some code jumps to.
* `Node.labelCount`: how many labels the branches and loops of a tree need.
* `Emits.lowers`: what the relation emits is what lowering returns.
* `ClosesLoop`: the line is at the end of the code of a loop.
* `Directed`: a jump leads forward, or it closes a loop and leads backward.
* `Emits.allDirected`: all lines of the code of a statement are directed.

**Theorem (`generate_closed`).** The labels of a statement are those from zero on, each of them set
once and jumped to once. A conditional jump leads forward, and a jump leads backward iff it closes a
loop.

A piece of code is directed within a whole: an emitted label is found wherever the piece stands.
Labels are set once (`Emits.nodup_labelsOf`), so that a label that is found is the one jumped to.
-/

namespace ThreeAddress

open Lowering

/-! ## Jumps -/

/-- The label that an instruction may jump to. -/
def Instruction.goal? : Instruction → Option Nat
  | .jumpUnless _ number | .jump number => some number
  | _ => none

/-- The labels that some code may jump to, in the order of the jumps. -/
def jumpsOf (code : List Instruction) : List Nat := code.filterMap Instruction.goal?

theorem count_jumpsOf_append (code code' : List Instruction) (n : Nat) :
    (jumpsOf (code ++ code')).count n = (jumpsOf code).count n + (jumpsOf code').count n := by
  rw [jumpsOf, List.filterMap_append, List.count_append]
  rfl

theorem count_jumpsOf_cons (i : Instruction) (code : List Instruction) (n : Nat) :
    (jumpsOf (i :: code)).count n =
      (if i.goal? = some n then 1 else 0) + (jumpsOf code).count n := by
  cases h : i.goal? with
  | none => simp [jumpsOf, List.filterMap_cons_none h]
  | some m =>
    simp only [jumpsOf, List.filterMap_cons_some h, List.count_cons, Option.some.injEq, beq_iff_eq]
    omega

/-- Code of expressions jumps nowhere. -/
theorem Computes.count_jumpsOf {e : Node} {t t' : Nat} {code : List Instruction} {a : Operand}
    (h : Computes e t code a t') (n : Nat) : (jumpsOf code).count n = 0 := by
  induction h with
  | int | float | string | var => rfl
  | binary _ _ ihl ihr =>
    rw [count_jumpsOf_append, count_jumpsOf_append, ihl, ihr]
    rfl

/-- **Each label has one jump**, in the code of every branch and loop. -/
theorem Emits.count_jumpsOf {s : Node} {k k' : Counters} {code : List Instruction}
    (h : Emits s k code k') (n : Nat) : (jumpsOf code).count n = (labelsOf code).count n := by
  induction h with
  | assign c | retValue c =>
    rw [count_jumpsOf_append, count_labelsOf_append, c.count_jumpsOf, c.count_labelsOf]
    rfl
  | block_nil | ret => rfl
  | block_cons _ _ ih₁ ih₂ => rw [count_jumpsOf_append, count_labelsOf_append, ih₁, ih₂]
  | ifThen c _ ih | whileLoop c _ ih =>
    simp only [count_jumpsOf_append, count_jumpsOf_cons, count_labelsOf_append, count_labelsOf_cons,
      c.count_jumpsOf, c.count_labelsOf, ih, Instruction.goal?, Instruction.label?]
    simp only [jumpsOf, List.filterMap_nil, labelsOf_nil, Option.some.injEq, reduceCtorEq, if_false]
    omega
  | ifElse c _ _ ih₁ ih₂ =>
    simp only [count_jumpsOf_append, count_jumpsOf_cons, count_labelsOf_append, count_labelsOf_cons,
      c.count_jumpsOf, c.count_labelsOf, ih₁, ih₂, Instruction.goal?, Instruction.label?]
    simp only [jumpsOf, List.filterMap_nil, labelsOf_nil, Option.some.injEq, reduceCtorEq, if_false]
    omega
  | forLoop _ c _ _ ih₁ ih₂ ih₃ =>
    simp only [count_jumpsOf_append, count_jumpsOf_cons, count_labelsOf_append, count_labelsOf_cons,
      c.count_jumpsOf, c.count_labelsOf, ih₁, ih₂, ih₃, Instruction.goal?, Instruction.label?]
    simp only [jumpsOf, List.filterMap_nil, labelsOf_nil, Option.some.injEq, reduceCtorEq, if_false]
    omega

/-! ## Labels that are needed -/

namespace Node

/-- How many labels a node needs for itself: a branch without an alternative needs one, and all
other branches and all loops need two. -/
def ownLabels : Node → Nat
  | ifThen .. => 1
  | ifElse .. | whileLoop .. | forLoop .. => 2
  | _ => 0

/-- How many labels a tree needs. -/
def labelCount (n : Node) : Nat := (n.parts.map ownLabels).sum

section LabelCounts

variable {s value left right init condition update thenBranch elseBranch body : Node}
  {name : String} {declares : Option Ty} {op : Operator} {ss : List Node} {l : Option Location}

theorem labelCount_binary :
    (binary left op right l).labelCount = left.labelCount + right.labelCount := by
  simp [labelCount, parts, ownLabels]

theorem labelCount_assign : (assign name value declares l).labelCount = value.labelCount := by
  simp [labelCount, parts, ownLabels]

theorem labelCount_retValue : (retValue value l).labelCount = value.labelCount := by
  simp [labelCount, parts, ownLabels]

theorem labelCount_block_cons :
    (block (s :: ss) l).labelCount = s.labelCount + (block ss l).labelCount := by
  simp [labelCount, parts, partsAll, ownLabels]

theorem labelCount_ifThen : (ifThen condition thenBranch l).labelCount =
    1 + (condition.labelCount + thenBranch.labelCount) := by
  simp [labelCount, parts, ownLabels]

theorem labelCount_ifElse : (ifElse condition thenBranch elseBranch l).labelCount =
    2 + (condition.labelCount + (thenBranch.labelCount + elseBranch.labelCount)) := by
  simp [labelCount, parts, ownLabels]

theorem labelCount_whileLoop : (whileLoop condition body l).labelCount =
    2 + (condition.labelCount + body.labelCount) := by
  simp [labelCount, parts, ownLabels]

theorem labelCount_forLoop : (forLoop init condition update body l).labelCount =
    2 + (init.labelCount + (condition.labelCount + (update.labelCount + body.labelCount))) := by
  simp [labelCount, parts, ownLabels]

end LabelCounts

end Node

theorem Computes.labelCount_eq {e : Node} {t t' : Nat} {code : List Instruction} {a : Operand}
    (h : Computes e t code a t') : e.labelCount = 0 := by
  induction h with
  | int | float | string | var => rfl
  | binary _ _ ihl ihr => rw [Node.labelCount_binary, ihl, ihr]

/-- **The counter of labels** goes on by as many as the branches and loops need. -/
theorem Emits.labels_eq {s : Node} {k k' : Counters} {code : List Instruction}
    (h : Emits s k code k') : k'.labels = k.labels + s.labelCount := by
  induction h with
  | assign c => rw [Node.labelCount_assign, c.labelCount_eq, Nat.add_zero]
  | retValue c => rw [Node.labelCount_retValue, c.labelCount_eq, Nat.add_zero]
  | block_nil | ret => rfl
  | block_cons _ _ ih₁ ih₂ => rw [Node.labelCount_block_cons, ih₂, ih₁, Nat.add_assoc]
  | ifThen c _ ih =>
    dsimp only at ih
    rw [Node.labelCount_ifThen, c.labelCount_eq]
    omega
  | ifElse c _ _ ih₁ ih₂ =>
    dsimp only at ih₁ ih₂
    rw [Node.labelCount_ifElse, c.labelCount_eq]
    omega
  | whileLoop c _ ih =>
    dsimp only at ih
    rw [Node.labelCount_whileLoop, c.labelCount_eq]
    omega
  | forLoop _ c _ _ ih₁ ih₂ ih₃ =>
    dsimp only at ih₁ ih₂
    rw [Node.labelCount_forLoop, c.labelCount_eq]
    omega

/-! ## Lowering and the relations -/

theorem Computes.lowers {e : Node} {t t' : Nat} {code : List Instruction} {a : Operand}
    (h : Computes e t code a t') (labels : Nat) :
    expression e ⟨t, labels⟩ = .ok ((code, a), ⟨t', labels⟩) := by
  induction h with
  | int | float | string | var => rfl
  | binary _ _ ihl ihr =>
    rw [expression, lower_bind ihl]
    show (expression _ >>= _) _ = _
    rw [lower_bind ihr]
    rfl

/-- What the relation emits is what lowering returns. -/
theorem Emits.lowers {s : Node} {k k' : Counters} {code : List Instruction}
    (h : Emits s k code k') : statement s k = .ok (code, k') := by
  induction h with
  | assign c | retValue c =>
    rw [statement, lower_bind (c.lowers _)]
    rfl
  | block_nil | ret => rfl
  | block_cons _ _ ih₁ ih₂ =>
    rw [statement] at ih₂ ⊢
    rw [Lowering.sequence, lower_bind ih₁, lower_bind ih₂]
    rfl
  | @ifThen _ _ _ k _ _ _ _ _ c _ ih =>
    rw [statement, lower_bind (newLabel_eq k), lower_bind (c.lowers _)]
    show (statement _ >>= _) _ = _
    rw [lower_bind ih]
    rfl
  | @ifElse _ _ _ _ k k₁ _ _ _ _ _ _ c _ _ ih₁ ih₂ =>
    rw [statement, lower_bind (newLabel_eq k), lower_bind (c.lowers _)]
    show (statement _ >>= _) _ = _
    rw [lower_bind ih₁, lower_bind (newLabel_eq k₁), lower_bind ih₂]
    rfl
  | @whileLoop _ _ _ k _ _ _ _ _ c _ ih =>
    rw [statement, lower_bind (newLabel_eq k), lower_bind (newLabel_eq _), lower_bind (c.lowers _)]
    show (statement _ >>= _) _ = _
    rw [lower_bind ih]
    rfl
  | @forLoop _ _ _ _ _ k _ _ _ _ _ _ _ _ _ _ c _ _ ih₁ ih₂ ih₃ =>
    rw [statement, lower_bind (newLabel_eq k), lower_bind (newLabel_eq _), lower_bind ih₁,
      lower_bind (c.lowers _)]
    show (statement _ >>= _) _ = _
    rw [lower_bind ih₂, lower_bind ih₃]
    rfl

/-! ## Directions -/

namespace Node

def isLoop : Node → Bool
  | whileLoop .. | forLoop .. => true
  | _ => false

/-- The loops of a tree. -/
def loops (n : Node) : List Node := n.parts.filter isLoop

section Loops

variable {s init condition update thenBranch elseBranch body : Node} {ss : List Node}
  {l : Option Location}

theorem loops_block_cons :
    (block (s :: ss) l).loops = s.loops ++ (block ss l).loops := by
  simp [loops, parts, partsAll, isLoop]

theorem loops_ifThen :
    (ifThen condition thenBranch l).loops = condition.loops ++ thenBranch.loops := by
  simp [loops, parts, isLoop]

theorem loops_ifElse : (ifElse condition thenBranch elseBranch l).loops =
    condition.loops ++ (thenBranch.loops ++ elseBranch.loops) := by
  simp [loops, parts, isLoop]

theorem loops_whileLoop : (whileLoop condition body l).loops =
    whileLoop condition body l :: (condition.loops ++ body.loops) := by
  rw [loops, parts, List.filter_cons_of_pos rfl, List.filter_append]
  rfl

theorem loops_forLoop : (forLoop init condition update body l).loops =
    forLoop init condition update body l ::
      (init.loops ++ (condition.loops ++ (update.loops ++ body.loops))) := by
  rw [loops, parts, List.filter_cons_of_pos rfl, List.filter_append, List.filter_append,
    List.filter_append]
  rfl

end Loops

/-- The loops of a statement are statements. -/
theorem IsStatement.of_mem_loops {s loop : Node} (hs : s.IsStatement) (h : loop ∈ s.loops) :
    loop.IsStatement := by
  obtain ⟨hmem, hloop⟩ := List.mem_filter.1 h
  rcases hs.parts loop hmem with he | hs
  · cases he <;> cases hloop
  · exact hs

end Node

/-- The line is at the end of a loop of the tree: the code of the loop stands in the whole, and
behind the line there is only the label that leads out of the loop. -/
def ClosesLoop (s : Node) (code : List Instruction) (line : Nat) : Prop :=
  ∃ loop ∈ s.loops, ∃ k piece k' start, statement loop k = .ok (piece, k') ∧
    CodeAt code start piece ∧ line + 2 = start + piece.length

/-- A jump leads forward, or it is at the end of a loop and leads backward. -/
def Directed (s : Node) (code : List Instruction) (line : Nat) : Instruction → Prop
  | .jumpUnless _ number => ∃ j, line < j ∧ code[j]? = some (.label number)
  | .jump number =>
    (∃ j, line < j ∧ code[j]? = some (.label number)) ∨
      ClosesLoop s code line ∧ ∃ j < line, code[j]? = some (.label number)
  | _ => True

/-- All instructions of a piece are directed where they stand. -/
def AllDirected (s : Node) (code : List Instruction) (line : Nat) (piece : List Instruction) :
    Prop :=
  ∀ n i, piece[n]? = some i → Directed s code (line + n) i

section Directions

variable {s root : Node} {code piece piece' : List Instruction} {i : Instruction} {line : Nat}

theorem AllDirected.nil : AllDirected root code line [] := nofun

theorem AllDirected.cons (h : Directed root code line i)
    (h' : AllDirected root code (line + 1) piece) : AllDirected root code line (i :: piece) := by
  intro n x hx
  cases n with
  | zero =>
    cases hx
    exact h
  | succ n =>
    rw [← Nat.add_assoc, Nat.add_right_comm]
    exact h' n x hx

theorem AllDirected.append (h : AllDirected root code line piece)
    (h' : AllDirected root code (line + piece.length) piece') :
    AllDirected root code line (piece ++ piece') := by
  intro n x hx
  by_cases hn : n < piece.length
  · rw [List.getElem?_append_left hn] at hx
    exact h n x hx
  · rw [List.getElem?_append_right (Nat.le_of_not_lt hn)] at hx
    have hdirected := h' _ x hx
    rwa [Nat.add_assoc, Nat.add_sub_cancel' (Nat.le_of_not_lt hn)] at hdirected

theorem AllDirected.one (h : Directed root code line i) : AllDirected root code line [i] :=
  .cons h .nil

theorem Computes.allDirected {e : Node} {t t' : Nat} {a : Operand}
    (h : Computes e t piece a t') (line : Nat) : AllDirected root code line piece := by
  induction h generalizing line with
  | int | float | string | var => exact .nil
  | binary _ _ ihl ihr => exact ((ihl line).append (ihr _)).append (.one trivial)

/-- **The code of a statement is directed** wherever it stands. -/
theorem Emits.allDirected {k k' : Counters} (h : Emits s k piece k')
    (hloops : s.loops ⊆ root.loops) (hcode : CodeAt code line piece) :
    AllDirected root code line piece := by
  induction h generalizing line with
  | assign c | retValue c => exact (c.allDirected line).append (.one trivial)
  | block_nil => exact .nil
  | ret => exact .one trivial
  | block_cons _ _ ih₁ ih₂ =>
    rw [Node.loops_block_cons, List.append_subset] at hloops
    exact (ih₁ hloops.1 hcode.left).append (ih₂ hloops.2 hcode.right)
  | ifThen c _ ih =>
    rw [Node.loops_ifThen, List.append_subset] at hloops
    have hend := hcode.right.head
    refine .append (.append (c.allDirected line)
      (.cons ⟨_, ?_, hend⟩ (ih hloops.2 hcode.left.right.tail))) (.one trivial)
    simp only [List.length_append, List.length_cons]
    omega
  | ifElse c _ _ ih₁ ih₂ =>
    rw [Node.loops_ifElse, List.append_subset, List.append_subset] at hloops
    obtain ⟨-, hthen, helse⟩ := hloops
    have hother := hcode.left.right.tail.head
    have hend := hcode.right.head
    refine .append (.append (.append (c.allDirected line)
      (.cons ⟨_, ?_, hother⟩ (ih₁ hthen hcode.left.left.right.tail)))
      (.cons (.inl ⟨_, ?_, hend⟩) (.cons trivial (ih₂ helse hcode.left.right.tail.tail))))
      (.one trivial)
    all_goals
      simp only [List.length_append, List.length_cons]
      omega
  | @whileLoop _ _ l _ _ _ _ _ _ c e ih =>
    rw [Node.loops_whileLoop, List.cons_subset, List.append_subset] at hloops
    obtain ⟨hself, -, hbody⟩ := hloops
    have hstart := hcode.left.left.head
    have hend := hcode.right.tail.head
    have hclosed := (Emits.whileLoop (l := l) c e).lowers
    refine .append (.append (.cons trivial (c.allDirected _))
      (.cons ⟨_, ?_, hend⟩ (ih hbody hcode.left.right.tail)))
      (.cons (.inr ⟨⟨_, hself, _, _, _, line, hclosed, hcode, ?_⟩, _, ?_, hstart⟩) (.one trivial))
    all_goals
      simp only [List.length_append, List.length_cons, List.length_nil]
      omega
  | @forLoop _ _ _ _ l _ _ _ _ _ _ _ _ _ _ e₁ c e₂ e₃ ih₁ ih₂ ih₃ =>
    rw [Node.loops_forLoop, List.cons_subset, List.append_subset, List.append_subset,
      List.append_subset] at hloops
    obtain ⟨hself, hinit, -, hupdate, hbody⟩ := hloops
    have hstart := hcode.left.left.left.right.head
    have hend := hcode.right.tail.head
    have hclosed := (Emits.forLoop (l := l) e₁ c e₂ e₃).lowers
    refine .append (.append (.append (.append (ih₁ hinit hcode.left.left.left.left)
      (.cons trivial (c.allDirected _)))
      (.cons ⟨_, ?_, hend⟩ (ih₂ hbody hcode.left.left.right.tail)))
      (ih₃ hupdate hcode.left.right))
      (.cons (.inr ⟨⟨_, hself, _, _, _, line, hclosed, hcode, ?_⟩, _, ?_, hstart⟩) (.one trivial))
    all_goals
      simp only [List.length_append, List.length_cons, List.length_nil]
      omega

/-- At the end of a loop a jump leads back to its label. -/
theorem ClosesLoop.backward {number : Nat} (hs : s.IsStatement) (h : ClosesLoop s code line)
    (hjump : code[line]? = some (.jump number)) :
    ∃ j < line, code[j]? = some (.label number) := by
  obtain ⟨loop, hloop, k, piece, k', start, hpiece, hcode, hline⟩ := h
  obtain ⟨piece', k'', hpiece', e⟩ := emits_of_isStatement (hs.of_mem_loops hloop) k
  rw [hpiece] at hpiece'
  cases hpiece'
  obtain ⟨-, hkind⟩ := List.mem_filter.1 hloop
  cases e with
  | whileLoop c e =>
    have hstart := hcode.left.left.head
    have hback := hcode.right.head
    obtain rfl : line = _ := Nat.add_right_cancel (hline.trans (by
      rw [List.length_append, ← Nat.add_assoc]; rfl))
    cases hback.symm.trans hjump
    refine ⟨_, ?_, hstart⟩
    simp only [List.length_append, List.length_cons]
    omega
  | forLoop e₁ c e₂ e₃ =>
    have hstart := hcode.left.left.left.right.head
    have hback := hcode.right.head
    obtain rfl : line = _ := Nat.add_right_cancel (hline.trans (by
      rw [List.length_append, ← Nat.add_assoc]; rfl))
    cases hback.symm.trans hjump
    refine ⟨_, ?_, hstart⟩
    simp only [List.length_append, List.length_cons]
    omega
  | assign | block_nil | block_cons | ifThen | ifElse | ret | retValue => cases hkind

end Directions

/-- **The control flow of a statement is closed**, and jumps match labels one to one. -/
theorem generate_closed {s : Node} (hs : s.IsStatement) :
    ∃ code, generate s = .ok code ∧
      (labelsOf code).Perm (List.range s.labelCount) ∧
      (jumpsOf code).Perm (List.range s.labelCount) ∧
      (∀ i a number, code[i]? = some (.jumpUnless a number) →
        ∃ j, lineOf? code number = some j ∧ i < j) ∧
      ∀ i number, code[i]? = some (.jump number) →
        ∃ j, lineOf? code number = some j ∧ (j < i ↔ ClosesLoop s code i) := by
  obtain ⟨code, k', hcode, e⟩ := emits_of_isStatement hs {}
  have hdirected := e.allDirected (List.Subset.refl s.loops) (.whole code)
  have hlabels : (labelsOf code).Perm (List.range s.labelCount) := by
    rw [List.perm_ext_iff_of_nodup e.nodup_labelsOf List.nodup_range]
    intro n
    rw [← List.count_pos_iff, e.count_labelsOf, e.labels_eq, List.mem_range]
    simp only [Nat.zero_le, Nat.zero_add, true_and]
    split_ifs <;> omega
  have hjumps : (jumpsOf code).Perm (labelsOf code) := List.perm_iff_count.2 e.count_jumpsOf
  refine ⟨code, generate_of_emits hcode, hlabels, hjumps.trans hlabels, fun i a n hi => ?_,
    fun i n hi => ?_⟩
  · have hforward := hdirected i _ hi
    rw [Nat.zero_add] at hforward
    obtain ⟨j, hj, hlabel⟩ := hforward
    exact ⟨j, lineOf?_eq e.nodup_labelsOf hlabel, hj⟩
  · have hdirection := hdirected i _ hi
    rw [Nat.zero_add] at hdirection
    rcases hdirection with ⟨j, hj, hlabel⟩ | ⟨hloop, j, hj, hlabel⟩
    · have hline := lineOf?_eq e.nodup_labelsOf hlabel
      refine ⟨j, hline, fun hback => absurd hback (Nat.lt_asymm hj), fun hloop => ?_⟩
      obtain ⟨j', hj', hlabel'⟩ := hloop.backward hs hi
      rw [lineOf?_eq e.nodup_labelsOf hlabel'] at hline
      cases hline
      exact hj'
    · exact ⟨j, lineOf?_eq e.nodup_labelsOf hlabel, fun _ => hloop, fun _ => hj⟩

/-- `while (x) { if (y) {} else {} }` -/
def loopWithBranch : Node :=
  .whileLoop (.var "x" none)
    (.block [.ifElse (.var "y" none) (.block [] none) (.block [] none) none] none) none

theorem loopWithBranch_closed :
    loopWithBranch.IsStatement ∧ loopWithBranch.labelCount = 4 ∧
    ∃ code, generate loopWithBranch = .ok code ∧ labelsOf code = [0, 2, 3, 1] ∧
      jumpsOf code = [1, 2, 3, 0] ∧ ClosesLoop loopWithBranch code 6 ∧
      ¬ ClosesLoop loopWithBranch code 3 := by
  have hempty : Node.IsStatement (.block [] none) := .block fun _ hs => absurd hs List.not_mem_nil
  have hs : loopWithBranch.IsStatement :=
    .whileLoop .var (.block (List.forall_mem_singleton.2 (.ifElse .var hempty hempty)))
  obtain ⟨code, hcode, -, -, -, hjumps⟩ := generate_closed hs
  cases hcode
  obtain ⟨j, hj, hloop⟩ := hjumps 6 0 rfl
  obtain ⟨j', hj', hbranch⟩ := hjumps 3 3 rfl
  cases hj
  cases hj'
  exact ⟨hs, rfl, _, rfl, rfl, rfl, hloop.1 (by decide), fun h => absurd (hbranch.2 h) (by decide)⟩

end ThreeAddress
