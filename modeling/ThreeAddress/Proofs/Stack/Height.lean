import ThreeAddress.Proofs.Compilation.Stages
import ThreeAddress.Proofs.Folding.Relation
import ThreeAddress.Proofs.Token.Calls
import ThreeAddress.Stack.Height

/-!
# Heights of trees

The height of a tree bounds the room that the walks over it need. It is bounded itself by the length
of the text that the tree is read from, and folding does not make a tree higher.

* `Program.heightAll_le`: a program is no higher than it has tokens.
* `Folds.height_le`: a folded tree is no higher than the tree.
* `Reads.heightAll_le`: a program is no higher than its text is long, but for one.
-/

namespace ThreeAddress

namespace Node

theorem height_pos (n : Node) : 0 < n.height := by
  cases n <;> simp [height]

end Node

/-! ## The grammar -/

namespace Grammar.Derives

theorem Expression.height_le {tier : Tier} {ts : List Token} {e : Node}
    (h : Expression tier ts e) : e.height ≤ ts.length := by
  induction h with
  | int | float | string | var => exact Nat.le_refl _
  | parens _ _ _ ih =>
    rw [List.length_cons, List.length_append]
    omega
  | ofFactor _ ih | ofTerm _ ih => exact ih
  | high _ _ _ ihl ihr | low _ _ _ ihl ihr =>
    rw [Node.height, List.length_append, List.length_cons]
    omega

theorem Update.height_le {ts : List Token} {s : Node} (h : Update ts s) :
    s.height ≤ ts.length := by
  cases h with
  | plain _ _ hvalue | typed _ _ _ hvalue =>
    have hheight := hvalue.height_le
    simp only [Node.height, List.length_cons]
    omega

theorem Condition.height_le {ts : List Token} {e : Node} (h : Condition ts e) :
    e.height + 2 ≤ ts.length := by
  cases h with
  | parens _ h _ =>
    have hheight := h.height_le
    rw [List.length_cons, List.length_append, List.length_singleton]
    omega

mutual

theorem Statement.height_le {ts : List Token} {s : Node} :
    Statement ts s → s.height ≤ ts.length
  | .assignment h _ => by
    have hheight := h.height_le
    rw [List.length_append]
    omega
  | .block h => h.height_le
  | .ifThen _ hc hb => by
    have hcondition := hc.height_le
    have hblock := hb.height_le
    rw [Node.height, List.length_cons, List.length_append]
    omega
  | .ifElse _ hc hb _ hb' => by
    have hcondition := hc.height_le
    have hblock := hb.height_le
    have hother := hb'.height_le
    simp only [Node.height, List.length_cons, List.length_append]
    omega
  | .forLoop _ _ hi _ hc _ hu _ hb => by
    have hinit := hi.height_le
    have htest := hc.height_le
    have hupdate := hu.height_le
    have hblock := hb.height_le
    simp only [Node.height, List.length_cons, List.length_append]
    omega
  | .whileLoop _ hc hb => by
    have hcondition := hc.height_le
    have hblock := hb.height_le
    rw [Node.height, List.length_cons, List.length_append]
    omega
  | .ret _ _ => Nat.le_succ _
  | .retValue _ h _ => by
    have hheight := h.height_le
    rw [Node.height, List.length_cons, List.length_append]
    omega

theorem Block.height_le {ts : List Token} {s : Node} : Block ts s → s.height ≤ ts.length
  | .braces _ h _ => by
    have hheight := h.heightAll_le
    rw [Node.height, List.length_cons, List.length_append]
    omega

/-- **A program is no higher than it has tokens.** -/
theorem Program.heightAll_le {ts : List Token} {ss : List Node} :
    Program ts ss → Node.heightAll ss ≤ ts.length
  | .nil => Nat.le_refl _
  | .cons h h' => by
    have hheight := h.height_le
    have hheights := h'.heightAll_le
    rw [Node.heightAll, List.length_append]
    omega

end

end Grammar.Derives

theorem Grammar.heightAll_of_ofTokens {tokens : List Token} {lines : List String}
    {ss : List Node} (hlexical : ∀ t ∈ tokens, t.Lexical) (h : ofTokens tokens lines = .ok ss) :
    Node.heightAll ss ≤ tokens.length := by
  rcases ofTokens_outcome hlexical lines with ⟨_, hok, hderives⟩ | ⟨p, herror, -⟩
  · cases hok.symm.trans h
    exact hderives.heightAll_le.trans (List.takeWhile_sublist _).length_le
  · cases herror.symm.trans h

/-! ## Source texts -/

theorem Scan.length_tokens_le (source file : String) :
    (Scan.ofSource source file).tokens.length ≤ source.length + 1 := by
  rw [← String.length_toList]
  exact (Scan.ofSource_yields source file).length_le

/-- A program is no higher than its text is long, but for one. -/
theorem Reads.heightAll_le {source file : String} {program : List Node}
    (h : Reads source file program) : Node.heightAll program ≤ source.length + 1 := by
  obtain ⟨tokens, hscan, hparse⟩ := h
  have hheight := Grammar.heightAll_of_ofTokens (Grammar.lexical_of_result hscan) hparse
  obtain ⟨-, rfl⟩ := Scan.result_eq_ok_iff.1 hscan
  exact hheight.trans (Scan.length_tokens_le source file)

/-! ## Folding -/

namespace Folding

theorem Reduces.height_le {left right n : Node} {op : Operator} {l : Option Location}
    {told : List Notice} (h : Reduces left op right l n told) :
    n.height ≤ max left.height right.height + 1 := by
  induction h with
  | ints | floats => exact Nat.le_add_left _ _
  | tooLong | intsKept | floatsKept | beyondLeft | beyondRight | kept => exact Nat.le_refl _
  | promoteLeft _ _ ih | promoteRight _ _ ih => exact ih

/-- **A folded tree is no higher than the tree.** -/
theorem Folds.height_le {n n' : Node} {told : List Notice} (h : Folds n n' told) :
    n'.height ≤ n.height := by
  induction h with
  | untouched => exact Nat.le_refl _
  | binary _ _ hreduces ihl ihr =>
    have hreduced := hreduces.height_le
    rw [Node.height]
    omega
  | ifThen | ifElse | forLoop | whileLoop | retValue =>
    simp only [Node.height]
    omega

theorem foldAll_heightAll_le (ns : List Node) (notices : List Notice) :
    Meets (foldAll ns) notices (fun ns' _ => Node.heightAll ns' ≤ Node.heightAll ns)
      fun _ _ => True := by
  induction ns generalizing notices with
  | nil => exact .pure (Nat.le_refl _)
  | cons n ns ih =>
    rw [foldAll]
    refine (fold_folds n notices).andThen (fun n' t h => ?_) fun _ _ h => h
    obtain ⟨told, hfolds, -⟩ := h
    refine (ih t).andThen (fun ns' _ hns => .pure ?_) fun _ _ h => h
    have hheight := hfolds.height_le
    simp only [Node.heightAll]
    omega

end Folding

/-- A compilation makes no tree that is higher than its text is long, but for one. -/
theorem Passes.heightAll_le {options : Options} {source file : String} {c : Compilation}
    (h : Passes options source file c) : Node.heightAll c.optimized ≤ source.length + 1 := by
  have hprogram := h.reads.heightAll_le
  have hoptimizes := h.optimizes
  generalize options.fold = fold at hoptimizes
  generalize c.program = program at hprogram hoptimizes
  cases hoptimizes with
  | kept => exact hprogram
  | folded hfold => exact ((Folding.foldAll_heightAll_le program _).of_ok hfold).trans hprogram

end ThreeAddress
