import ThreeAddress.Proofs.Tree.Shape
import ThreeAddress.Tree.Outline

/-!
# Entries of outlines

An outline as a list of texts with their depths, before the texts are indented and joined.

* `Node.entries`, `Node.entriesAll`: the entries of a tree and of some trees.
* `Node.caption`: the first of them.
* `Node.outlineProgram_eq`: every program of statements has an outline, and it consists of the
  entries.
-/

namespace ThreeAddress

open Literal

/-! ## Entries -/

/-- A text at some depth. -/
structure Entry where
  depth : Nat
  text : String

/-- The entry as a line of the outline. -/
def Entry.line (e : Entry) : String := outlineEntry e.depth e.text

/-- A label with some entries behind it. -/
def labelled (depth : Nat) (label : String) (entries : List Entry) : List Entry :=
  ⟨depth, label ++ ":"⟩ :: entries

namespace Node

/-- What the entry of a node says. No outline has an entry for a bare node. -/
def caption : Node → String
  | assign name _ declares _ => "AssignNode: " ++ Ty.lead declares ++ name
  | binary _ op _ _ => "Binary Operation: " ++ op.symbol
  | int value _ => "Integer: " ++ intText value
  | float value _ => "Float: " ++ floatText value
  | string value _ => "String: " ++ stringText value
  | var name _ => "VarNode: " ++ name
  | ifThen .. | ifElse .. => "If Statement"
  | forLoop .. => "For Loop"
  | whileLoop .. => "While Loop"
  | ret .. | retValue .. => "Return"
  | block .. => "\x7bBlock\x7d"
  | bare .. => "ASTNode"

mutual

/-- The entries of a tree whose root stands at the given depth. -/
def entries (depth : Nat) : Node → List Entry
  | n@(assign _ value _ _) => ⟨depth, n.caption⟩ :: value.entries (depth + 1)
  | n@(binary left _ right _) =>
    ⟨depth, n.caption⟩ :: (left.entries (depth + 1) ++ right.entries (depth + 1))
  | n@(ifThen condition thenBranch _) =>
    ⟨depth, n.caption⟩ :: labelled (depth + 1) "Condition" (condition.entries (depth + 2) ++
      labelled (depth + 1) "Then" (thenBranch.entries (depth + 2)))
  | n@(ifElse condition thenBranch elseBranch _) =>
    ⟨depth, n.caption⟩ :: labelled (depth + 1) "Condition" (condition.entries (depth + 2) ++
      labelled (depth + 1) "Then" (thenBranch.entries (depth + 2) ++
        labelled (depth + 1) "Else" (elseBranch.entries (depth + 2))))
  | n@(forLoop init condition update body _) =>
    ⟨depth, n.caption⟩ :: labelled (depth + 1) "Initialization" (init.entries (depth + 2) ++
      labelled (depth + 1) "Condition" (condition.entries (depth + 2) ++
        labelled (depth + 1) "Update" (update.entries (depth + 2) ++
          labelled (depth + 1) "Body" (body.entries (depth + 2)))))
  | n@(whileLoop condition body _) =>
    ⟨depth, n.caption⟩ :: labelled (depth + 1) "Condition" (condition.entries (depth + 2) ++
      labelled (depth + 1) "Body" (body.entries (depth + 2)))
  | n@(ret _) => [⟨depth, n.caption⟩, ⟨depth + 1, "(empty)"⟩]
  | n@(retValue value _) => ⟨depth, n.caption⟩ :: value.entries (depth + 1)
  | n@(block statements _) => ⟨depth, n.caption⟩ :: entriesAll (depth + 1) statements
  | n@(int ..) | n@(float ..) | n@(string ..) | n@(var ..) | n@(bare ..) => [⟨depth, n.caption⟩]

/-- The entries of some trees, one below the other. -/
def entriesAll (depth : Nat) : List Node → List Entry
  | [] => []
  | s :: ss => s.entries depth ++ entriesAll depth ss

end

theorem mem_entriesAll {depth : Nat} {ss : List Node} {e : Entry} :
    e ∈ entriesAll depth ss ↔ ∃ s ∈ ss, e ∈ s.entries depth := by
  induction ss with
  | nil => simp [entriesAll]
  | cons s ss ih => simp only [entriesAll, List.mem_append, ih, List.mem_cons, exists_eq_or_imp]

/-! ## Outlines as entries -/

theorem IsExpression.outlineAt_eq {e : Node} (he : e.IsExpression) (depth : Nat) :
    e.outlineAt depth = .ok ((e.entries depth).map Entry.line) := by
  induction he generalizing depth with
  | int | float | string | var => rfl
  | binary _ _ ihl ihr =>
    simp only [outlineAt, ihl, ihr, bind, Except.bind, entries, List.map_cons, List.map_append]
    rfl

theorem outlineAll_eq_of {ss : List Node} {depth : Nat}
    (h : ∀ s ∈ ss, s.outlineAt depth = .ok ((s.entries depth).map Entry.line)) :
    outlineAll depth ss = .ok ((entriesAll depth ss).map Entry.line) := by
  induction ss with
  | nil => rfl
  | cons s ss ih =>
    obtain ⟨hs, hss⟩ := List.forall_mem_cons.1 h
    rw [outlineAll, hs, ih hss, entriesAll, List.map_append]
    rfl

theorem IsStatement.outlineAt_eq {s : Node} (hs : s.IsStatement) (depth : Nat) :
    s.outlineAt depth = .ok ((s.entries depth).map Entry.line) := by
  induction hs generalizing depth with
  | ret => rfl
  | assign he | retValue he =>
    rw [outlineAt, he.outlineAt_eq]
    rfl
  | block _ ih =>
    rw [outlineAt, outlineAll_eq_of fun s hs => ih s hs (depth + 1)]
    rfl
  | ifThen hc _ iht =>
    simp only [outlineAt, hc.outlineAt_eq, iht, bind, Except.bind, entries, labelled,
      List.map_cons, List.map_append]
    rfl
  | ifElse hc _ _ iht ihe =>
    simp only [outlineAt, hc.outlineAt_eq, iht, ihe, bind, Except.bind, entries, labelled,
      List.map_cons, List.map_append, List.cons_append, List.append_assoc]
    rfl
  | forLoop _ hc _ _ ihi ihu ihb =>
    simp only [outlineAt, ihi, hc.outlineAt_eq, ihu, ihb, bind, Except.bind, entries, labelled,
      List.map_cons, List.map_append, List.cons_append, List.append_assoc]
    rfl
  | whileLoop hc _ ihb =>
    simp only [outlineAt, hc.outlineAt_eq, ihb, bind, Except.bind, entries, labelled,
      List.map_cons, List.map_append]
    rfl

/-- **An outline consists of the entries of its statements.** -/
theorem outlineProgram_eq {program : List Node} (h : ∀ s ∈ program, s.IsStatement) :
    outlineProgram program =
      .ok ("\n".intercalate ("Program" :: (entriesAll 1 program).map Entry.line)) := by
  rw [outlineProgram, outlineAll_eq_of fun s hs => (h s hs).outlineAt_eq 1]
  rfl

end Node

end ThreeAddress
