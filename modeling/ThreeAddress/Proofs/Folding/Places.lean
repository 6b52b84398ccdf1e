import Mathlib.Data.List.Forall2
import ThreeAddress.Proofs.Folding.Relation
import ThreeAddress.Proofs.Tree.Parts

/-!
# Places of folded trees

What folding puts in the place of an operation has the place of the operation, and an integer that
becomes a float stays where it is. All other nodes that folding touches are built anew with the
places that they had.

* `Node.Keeps`: a tree, and one that has other literals in it and the same places.
* `Folds.keeps`: folding keeps a tree in this sense.
* `Node.Keeps.parts`: each node of the second tree has the place of one of the first.
-/

namespace ThreeAddress

/-- The second tree is the first one with a number in the place of some operations and a float in
that of some integers. -/
inductive Node.Keeps : Node → Node → Prop
  | same {n : Node} : Keeps n n
  | literal {left right n : Node} {op : Operator} {l : Option Location} :
      n.isNumeral = true → n.location = l → Keeps (.binary left op right l) n
  | promoted {a : Int} {x : Float} {l : Option Location} :
      Folding.promote? a = some x → Keeps (.int a l) (.float x l)
  | binary {left left' right right' : Node} {op : Operator} {l : Option Location} :
      Keeps left left' → Keeps right right' →
      Keeps (.binary left op right l) (.binary left' op right' l)
  | ifThen {c c' t t' : Node} {l : Option Location} :
      Keeps c c' → Keeps t t' → Keeps (.ifThen c t l) (.ifThen c' t' l)
  | ifElse {c c' t t' e e' : Node} {l : Option Location} :
      Keeps c c' → Keeps t t' → Keeps e e' → Keeps (.ifElse c t e l) (.ifElse c' t' e' l)
  | forLoop {i c u b b' : Node} {l : Option Location} :
      Keeps b b' → Keeps (.forLoop i c u b l) (.forLoop i c u b' l)
  | whileLoop {c b b' : Node} {l : Option Location} :
      Keeps b b' → Keeps (.whileLoop c b l) (.whileLoop c b' l)
  | retValue {e e' : Node} {l : Option Location} :
      Keeps e e' → Keeps (.retValue e l) (.retValue e' l)

namespace Node.Keeps

variable {n n' : Node}

theorem location (h : n.Keeps n') : n'.location = n.location := by
  cases h with
  | literal _ hlocation => exact hlocation
  | same | promoted | binary | ifThen | ifElse | forLoop | whileLoop | retValue => rfl

/-- A number that is there for an operation or an integer can become a float. -/
theorem promote {a : Int} {x : Float} {l : Option Location} (h : n.Keeps (.int a l))
    (hx : Folding.promote? a = some x) : n.Keeps (.float x l) := by
  cases h with
  | same => exact .promoted hx
  | literal _ hlocation => exact .literal rfl hlocation

/-- Each node of the tree has the place of one of the nodes. -/
def AllFrom (nodes : List Node) (n' : Node) : Prop := ∀ m' ∈ n'.parts, ∃ m ∈ nodes, m.Keeps m'

theorem AllFrom.refl : AllFrom n.parts n := fun m hm => ⟨m, hm, .same⟩

theorem AllFrom.mono {nodes nodes' : List Node} (h : AllFrom nodes n') (hsub : nodes ⊆ nodes') :
    AllFrom nodes' n' := by
  intro m' hm'
  obtain ⟨m, hm, hkeeps⟩ := h m' hm'
  exact ⟨m, hsub hm, hkeeps⟩

/-- **Each node of the second tree has the place of one of the first.** -/
theorem parts (h : n.Keeps n') : AllFrom n.parts n' := by
  induction h with
  | same => exact .refl
  | @literal left right n op l hnumeral hlocation =>
    have hparts : n.parts = [n] := by
      obtain ⟨a, p, rfl⟩ | ⟨x, p, rfl⟩ := isNumeral_iff.1 hnumeral <;> rfl
    intro m' hm'
    rw [hparts, List.mem_singleton] at hm'
    subst hm'
    exact ⟨_, List.mem_cons_self, .literal hnumeral hlocation⟩
  | promoted hx => exact List.forall_mem_singleton.2 ⟨_, List.mem_cons_self, .promoted hx⟩
  | binary hl hr ihl ihr =>
    refine List.forall_mem_cons.2 ⟨⟨_, List.mem_cons_self, .binary hl hr⟩, ?_⟩
    exact List.forall_mem_append.2 ⟨ihl.mono (by grind), ihr.mono (by grind)⟩
  | ifThen hc ht ihc iht =>
    refine List.forall_mem_cons.2 ⟨⟨_, List.mem_cons_self, .ifThen hc ht⟩, ?_⟩
    exact List.forall_mem_append.2 ⟨ihc.mono (by grind), iht.mono (by grind)⟩
  | ifElse hc ht he ihc iht ihe =>
    refine List.forall_mem_cons.2 ⟨⟨_, List.mem_cons_self, .ifElse hc ht he⟩, ?_⟩
    refine List.forall_mem_append.2 ⟨ihc.mono (by grind), ?_⟩
    exact List.forall_mem_append.2 ⟨iht.mono (by grind), ihe.mono (by grind)⟩
  | forLoop hb ihb =>
    refine List.forall_mem_cons.2 ⟨⟨_, List.mem_cons_self, .forLoop hb⟩, ?_⟩
    refine List.forall_mem_append.2 ⟨AllFrom.refl.mono (by grind), ?_⟩
    refine List.forall_mem_append.2 ⟨AllFrom.refl.mono (by grind), ?_⟩
    exact List.forall_mem_append.2 ⟨AllFrom.refl.mono (by grind), ihb.mono (by grind)⟩
  | whileLoop hb ihb =>
    refine List.forall_mem_cons.2 ⟨⟨_, List.mem_cons_self, .whileLoop hb⟩, ?_⟩
    exact List.forall_mem_append.2 ⟨AllFrom.refl.mono (by grind), ihb.mono (by grind)⟩
  | retValue he ih =>
    exact List.forall_mem_cons.2 ⟨⟨_, List.mem_cons_self, .retValue he⟩, ih.mono (by grind)⟩

theorem partsAll {ss ss' : List Node} (h : List.Forall₂ Node.Keeps ss ss') :
    ∀ m' ∈ Node.partsAll ss', ∃ m ∈ Node.partsAll ss, m.Keeps m' := by
  induction h with
  | nil => exact fun m' hm' => absurd hm' List.not_mem_nil
  | cons hs _ ih =>
    refine List.forall_mem_append.2 ⟨hs.parts.mono (List.subset_append_left _ _), fun m' hm' => ?_⟩
    obtain ⟨m, hm, hkeeps⟩ := ih m' hm'
    exact ⟨m, List.mem_append_right _ hm, hkeeps⟩

end Node.Keeps

namespace Folding

variable {left left' right right' n n' : Node} {op : Operator} {l : Option Location}
  {told : List Notice}

/-- The result of an operation has the place of the operation. -/
theorem Reduces.keeps (h : Reduces left' op right' l n told) (hl : left.Keeps left')
    (hr : right.Keeps right') : (Node.binary left op right l).Keeps n := by
  induction h with
  | ints | floats => exact .literal rfl rfl
  | tooLong | intsKept | floatsKept | beyondLeft | beyondRight | kept => exact .binary hl hr
  | promoteLeft hx _ ih => exact ih (hl.promote hx) hr
  | promoteRight hy _ ih => exact ih hl (hr.promote hy)

/-- **Folding keeps the places of a tree.** -/
theorem Folds.keeps (h : Folds n n' told) : n.Keeps n' := by
  induction h with
  | untouched => exact .same
  | binary _ _ hreduces ihl ihr => exact hreduces.keeps ihl ihr
  | ifThen _ _ ihc iht => exact .ifThen ihc iht
  | ifElse _ _ _ ihc iht ihe => exact .ifElse ihc iht ihe
  | forLoop _ ihb => exact .forLoop ihb
  | whileLoop _ ihb => exact .whileLoop ihb
  | retValue _ ih => exact .retValue ih

theorem foldAll_keeps (ss : List Node) (notices : List Notice) :
    Meets (foldAll ss) notices (fun ss' _ => List.Forall₂ Node.Keeps ss ss')
      fun _ _ => True := by
  induction ss generalizing notices with
  | nil => exact .pure .nil
  | cons s ss ih =>
    rw [foldAll]
    refine (fold_folds s notices).andThen ?_ fun _ _ h => h
    rintro s' notices' ⟨_, hs, -⟩
    exact (ih notices').andThen (fun ss' _ hss => .pure (.cons hs.keeps hss)) fun _ _ h => h

end Folding

end ThreeAddress
