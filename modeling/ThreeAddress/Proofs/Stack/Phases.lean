import ThreeAddress.Proofs.Stack.Height
import ThreeAddress.Proofs.Stack.Settling
import ThreeAddress.Proofs.Typing.Decision
import ThreeAddress.Stack.Folding
import ThreeAddress.Stack.Typing

/-!
# Checking and folding on a limited stack

The check and folding settle, and what they need is bounded by the height of the tree.

* `typed_settles`, `check_settles`: the type of an expression needs two calls for each node on the
  way to its leaves, and the check of a statement two more.
* `fold_settles`: folding needs two calls for each node.
-/

namespace ThreeAddress

/-- The failure that ends work on a full stack. -/
abbrev Failure.IsExhausted (e : Failure) : Prop := e = .exhausted

/-! ## Checking -/

namespace Typing

variable {lines : List String} {s : State} {α : Type} {bound : Nat}

/-- The stack of a check is full. -/
theorem call_settles (bound : Nat) {calls : Nat} {x : Nat → Check α} {y : Check α}
    (h : Settles Failure.IsExhausted bound x y s) :
    Settles Failure.IsExhausted (bound + calls) (fun room => OnStack.call calls room x) y s :=
  .enter ⟨_, _, rfl, rfl⟩ h

/-- The type of an operation is found from those of its operands, each found on its own. -/
theorem typed_binary (left : Node) (op : Operator) (right : Node) (l : Option Location) :
    typed lines (.binary left op right l) = (do
      let leftType ← typed lines left
      let rightType ← typed lines right
      match operationType op leftType rightType with
      | .ok type => return type
      | .error cause => fail (problemAt lines l cause)) := by
  funext s
  cases hleft : typeOf lines s.symbols left with
  | error p =>
    have htype : typeOf lines s.symbols (.binary left op right l) = .error p := by
      rw [typeOf, hleft]
      rfl
    rw [typed_of_error htype, bind_of_error (typed_of_error hleft)]
  | ok leftType =>
    rw [bind_of_ok (typed_of_ok hleft)]
    cases hright : typeOf lines s.symbols right with
    | error p =>
      have htype : typeOf lines s.symbols (.binary left op right l) = .error p := by
        rw [typeOf, hleft, hright]
        rfl
      rw [typed_of_error htype, bind_of_error (typed_of_error hright)]
    | ok rightType =>
      rw [bind_of_ok (typed_of_ok hright)]
      have htype : typeOf lines s.symbols (.binary left op right l) =
          (operationType op leftType rightType).mapError (problemAt lines l) := by
        rw [typeOf, hleft, hright]
        rfl
      cases hop : operationType op leftType rightType with
      | error cause =>
        rw [hop] at htype
        exact typed_of_error htype
      | ok type =>
        rw [hop] at htype
        exact typed_of_ok htype

/-- Any other expression has its type from one call. -/
theorem typed_leaf {n : Node} (h : ∀ left op right l, n ≠ .binary left op right l) (room : Nat) :
    OnStack.typed lines room n = OnStack.call 1 room fun _ => typed lines n := by
  cases n with
  | binary left op right l => exact absurd rfl (h left op right l)
  | _ => rw [OnStack.typed]; exact nofun

theorem typed_leaf_settles {n : Node} (h : ∀ left op right l, n ≠ .binary left op right l)
    (s : State) :
    Settles Failure.IsExhausted (2 * n.height) (fun room => OnStack.typed lines room n)
      (typed lines n) s := by
  have hpos := n.height_pos
  simp only [typed_leaf h]
  exact (call_settles 0 (.const _ s)).mono (by omega)

/-- **The type of an expression needs two calls for each node on the way to its leaves.** -/
theorem typed_settles (n : Node) (s : State) :
    Settles Failure.IsExhausted (2 * n.height) (fun room => OnStack.typed lines room n)
      (typed lines n) s := by
  cases n with
  | binary left op right l =>
    rw [typed_binary]
    simp only [OnStack.typed, Node.height]
    refine call_settles (2 * max left.height right.height) ?_
    refine ((typed_settles left s).mono (by omega)).bind fun leftType s₁ _ => ?_
    refine ((typed_settles right s₁).mono (by omega)).bind fun rightType s₂ _ => ?_
    exact .const _ _
  | _ => exact typed_leaf_settles (fun _ _ _ _ h => by cases h) s

theorem condition_settles (construct : String) (n : Node) (s : State) :
    Settles Failure.IsExhausted (2 * n.height + 1)
      (fun room => OnStack.condition lines construct room n) (condition lines construct n) s :=
  call_settles _ ((typed_settles n s).bind fun _ _ _ => .const _ _)

mutual

/-- **The check of a statement needs two calls for each node on the way to its leaves**, and two
more for the type of an expression at the end of the way. -/
theorem check_settles (n : Node) (s : State) :
    Settles Failure.IsExhausted (2 * n.height + 2) (fun room => OnStack.check lines room n)
      (check lines n) s := by
  cases n with
  | assign name value declares l =>
    simp only [OnStack.check, check, Node.height]
    refine call_settles (2 * value.height + 2) ?_
    refine ((typed_settles value s).mono (by omega)).bind fun type s₁ _ => ?_
    exact .const _ _
  | binary left op right l =>
    simp only [OnStack.check, check]
    exact call_settles _ ((typed_settles _ s).bind fun _ _ _ => .const _ _)
  | var name l =>
    simp only [OnStack.check, check]
    exact call_settles _ ((typed_settles _ s).bind fun _ _ _ => .const _ _)
  | ifThen test thenBranch l =>
    simp only [OnStack.check, check, Node.height]
    refine call_settles (2 * max test.height thenBranch.height + 2) ?_
    refine ((condition_settles _ test s).mono (by omega)).bind fun _ s₁ _ => ?_
    exact (check_settles thenBranch s₁).mono (by omega)
  | ifElse test thenBranch elseBranch l =>
    simp only [OnStack.check, check, Node.height]
    refine call_settles (2 * max test.height (max thenBranch.height elseBranch.height) + 2) ?_
    refine ((condition_settles _ test s).mono (by omega)).bind fun _ s₁ _ => ?_
    refine ((check_settles thenBranch s₁).mono (by omega)).bind fun _ s₂ _ => ?_
    exact (check_settles elseBranch s₂).mono (by omega)
  | forLoop init test update body l =>
    simp only [OnStack.check, check, Node.height]
    refine call_settles
      (2 * max (max init.height test.height) (max update.height body.height) + 2) ?_
    refine ((check_settles init s).mono (by omega)).bind fun _ s₁ _ => ?_
    refine ((condition_settles _ test s₁).mono (by omega)).bind fun _ s₂ _ => ?_
    refine ((check_settles update s₂).mono (by omega)).bind fun _ s₃ _ => ?_
    exact (check_settles body s₃).mono (by omega)
  | whileLoop test body l =>
    simp only [OnStack.check, check, Node.height]
    refine call_settles (2 * max test.height body.height + 2) ?_
    refine ((condition_settles _ test s).mono (by omega)).bind fun _ s₁ _ => ?_
    exact (check_settles body s₁).mono (by omega)
  | retValue value l =>
    simp only [OnStack.check, check, Node.height]
    refine call_settles (2 * value.height + 2) ?_
    exact ((typed_settles value s).mono (by omega)).bind fun _ _ _ => .const _ _
  | block statements l =>
    simp only [OnStack.check, check, Node.height]
    exact call_settles (2 * Node.heightAll statements + 2) (checkAll_settles statements s)
  | int | float | string | ret | bare =>
    simp only [OnStack.check]
    exact (call_settles 0 (.const _ s)).mono (by omega)

theorem checkAll_settles (ns : List Node) (s : State) :
    Settles Failure.IsExhausted (2 * Node.heightAll ns + 2)
      (fun room => OnStack.checkAll lines room ns) (checkAll lines ns) s := by
  cases ns with
  | nil =>
    simp only [OnStack.checkAll, checkAll]
    exact .const _ _
  | cons n ns =>
    simp only [OnStack.checkAll, checkAll, Node.heightAll]
    refine ((check_settles n s).mono (by omega)).bind fun _ s₁ _ => ?_
    exact (checkAll_settles ns s₁).mono (by omega)

end

end Typing

/-! ## Folding -/

namespace Folding

variable {α : Type} {bound : Nat} {s : List Notice}

theorem visit_settles (bound : Nat) {x : Nat → Work α} {y : Work α}
    (h : Settles Failure.IsExhausted bound x y s) :
    Settles Failure.IsExhausted (bound + 2) (fun room => OnStack.visit room x) y s :=
  .enter ⟨_, _, rfl, rfl⟩ h

/-- **Folding needs two calls for each node on the way to the leaves.** -/
theorem fold_settles (n : Node) (s : List Notice) :
    Settles Failure.IsExhausted (2 * n.height) (fun room => OnStack.fold room n) (fold n) s := by
  cases n with
  | binary left op right l =>
    simp only [OnStack.fold, fold, Node.height]
    refine visit_settles (2 * max left.height right.height) ?_
    refine ((fold_settles left s).mono (by omega)).bind fun left' s₁ _ => ?_
    refine ((fold_settles right s₁).mono (by omega)).bind fun right' s₂ _ => ?_
    exact .const _ _
  | ifThen test thenBranch l =>
    simp only [OnStack.fold, fold, Node.height]
    refine visit_settles (2 * max test.height thenBranch.height) ?_
    refine ((fold_settles test s).mono (by omega)).bind fun test' s₁ _ => ?_
    refine ((fold_settles thenBranch s₁).mono (by omega)).bind fun then' s₂ _ => ?_
    exact .const _ _
  | ifElse test thenBranch elseBranch l =>
    simp only [OnStack.fold, fold, Node.height]
    refine visit_settles (2 * max test.height (max thenBranch.height elseBranch.height)) ?_
    refine ((fold_settles test s).mono (by omega)).bind fun test' s₁ _ => ?_
    refine ((fold_settles thenBranch s₁).mono (by omega)).bind fun then' s₂ _ => ?_
    refine ((fold_settles elseBranch s₂).mono (by omega)).bind fun else' s₃ _ => ?_
    exact .const _ _
  | forLoop init test update body l =>
    simp only [OnStack.fold, fold, Node.height]
    refine visit_settles (2 * max (max init.height test.height) (max update.height body.height)) ?_
    exact ((fold_settles body s).mono (by omega)).bind fun body' s₁ _ => .const _ _
  | whileLoop test body l =>
    simp only [OnStack.fold, fold, Node.height]
    refine visit_settles (2 * max test.height body.height) ?_
    exact ((fold_settles body s).mono (by omega)).bind fun body' s₁ _ => .const _ _
  | retValue value l =>
    simp only [OnStack.fold, fold, Node.height]
    exact visit_settles _ ((fold_settles value s).bind fun value' s₁ _ => .const _ _)
  | assign | block | int | float | string | var | ret | bare =>
    simp only [OnStack.fold, Node.height]
    exact (visit_settles 0 (.const _ s)).mono (by omega)

theorem foldAll_settles (ns : List Node) (s : List Notice) :
    Settles Failure.IsExhausted (2 * Node.heightAll ns) (fun room => OnStack.foldAll room ns)
      (foldAll ns) s := by
  induction ns generalizing s with
  | nil =>
    simp only [OnStack.foldAll, foldAll]
    exact .const _ _
  | cons n ns ih =>
    simp only [OnStack.foldAll, foldAll, Node.heightAll]
    refine ((fold_settles n s).mono (by omega)).bind fun n' s₁ _ => ?_
    exact ((ih s₁).mono (by omega)).bind fun ns' s₂ _ => .const _ _

end Folding

end ThreeAddress
