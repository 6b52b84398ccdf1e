import ThreeAddress.Proofs.Steps
import ThreeAddress.Proofs.Tree.Parts
import ThreeAddress.Proofs.Typing.Judgement

/-!
# The node that a type problem is about

Each problem that the check finds is one at a node of the program: it has the place of the node and
quotes the line of that place.

* `Cause.Suits`: a variable that is reported as undeclared is one that the node refers to.
* `Blames`: the failure is a problem at one of some nodes, or no problem.
* `Blaming`: a step that fails in this way only; one rule for each way to build a step.
* `typecheck_blames`: the check of a program.
-/

namespace ThreeAddress

/-- The node reads the variable, or it sets it without declaring it. -/
def Node.Refers (n : Node) (name : String) : Prop :=
  (∃ l, n = .var name l) ∨ ∃ value l, n = .assign name value none l

/-- If the cause is that a variable is not declared, then the node refers to it. -/
def Cause.Suits (cause : Cause) (n : Node) : Prop :=
  cause.category = .undeclared → ∃ name, cause = .undeclared name ∧ n.Refers name

theorem Cause.Suits.of_ne {cause : Cause} {n : Node} (h : cause.category ≠ .undeclared) :
    cause.Suits n := fun hcategory => absurd hcategory h

namespace Typing

variable {lines : List String} {nodes nodes' : List Node} {e : Failure}

/-- A problem has the place of one of the nodes, and quotes its line. -/
def Blames (lines : List String) (nodes : List Node) (e : Failure) : Prop :=
  ∀ p, e = .problem p →
    ∃ m ∈ nodes, ∃ cause, p = problemAt lines m.location cause ∧ cause.Suits m

theorem Blames.mono (h : Blames lines nodes e) (hsub : nodes ⊆ nodes') :
    Blames lines nodes' e := by
  intro p hp
  obtain ⟨m, hm, hcause⟩ := h p hp
  exact ⟨m, hsub hm, hcause⟩

theorem blames_self {n : Node} {cause : Cause} (h : n ∈ nodes) (hsuits : cause.Suits n) :
    Blames lines nodes (.problem (problemAt lines n.location cause)) := by
  intro p hp
  cases hp
  exact ⟨n, h, cause, rfl, hsuits⟩

/-! ## Expressions -/

theorem operationType_category {op : Operator} {a b : Ty} {cause : Cause}
    (h : operationType op a b = .error cause) : cause.category = .typeMismatch := by
  unfold operationType at h
  split_ifs at h <;> cases h <;> rfl

theorem typeOf_blames {symbols : Symbols} {n : Node} {p : Problem}
    (h : typeOf lines symbols n = .error p) : Blames lines n.parts (.problem p) := by
  induction n with
  | var name l =>
    rw [typeOf] at h
    split at h
    · cases h
    · cases h
      exact blames_self (n := .var name l) List.mem_cons_self fun _ => ⟨name, rfl, .inl ⟨l, rfl⟩⟩
  | binary left op right l ihl ihr =>
    rw [typeOf] at h
    cases hl : typeOf lines symbols left with
    | error q =>
      rw [hl] at h
      cases h
      exact (ihl hl).mono fun _ hm => List.mem_cons_of_mem _ (List.mem_append_left _ hm)
    | ok leftType =>
      cases hr : typeOf lines symbols right with
      | error q =>
        rw [hl, hr] at h
        cases h
        exact (ihr hr).mono fun _ hm => List.mem_cons_of_mem _ (List.mem_append_right _ hm)
      | ok rightType =>
        rw [hl, hr] at h
        change (operationType op leftType rightType).mapError (problemAt lines l) = .error p at h
        cases hop : operationType op leftType rightType with
        | ok type =>
          rw [hop] at h
          cases h
        | error cause =>
          rw [hop] at h
          cases h
          refine blames_self (n := .binary left op right l) List.mem_cons_self (.of_ne ?_)
          rw [operationType_category hop]
          decide
  | assign | int | float | string | ifThen | ifElse | forLoop | whileLoop | ret | retValue | block
  | bare => cases h

/-! ## Steps -/

/-- The step fails with a problem at one of the nodes, or with no problem. -/
def Blaming {α : Type} (lines : List String) (nodes : List Node) (x : Check α) : Prop :=
  ∀ st, Meets x st (fun _ _ => True) fun e _ => Blames lines nodes e

namespace Blaming

variable {α β : Type} {x : Check α} {f : α → Check β}

theorem pure {a : α} : Blaming lines nodes (Pure.pure a) := fun _ => .pure trivial

theorem throw (h : Blames lines nodes e) :
    Blaming lines nodes (MonadExcept.throw e : Check α) := fun _ => .throw h

theorem mono (h : Blaming lines nodes x) (hsub : nodes ⊆ nodes') : Blaming lines nodes' x :=
  fun st => (h st).mono (fun _ _ h => h) fun _ _ he => he.mono hsub

theorem bind (hx : Blaming lines nodes x) (hf : ∀ a, Blaming lines nodes (f a)) :
    Blaming lines nodes (x >>= f) :=
  fun st => (hx st).andThen (fun a st' _ => hf a st') fun _ _ he => he

/-- The step looks at its state. -/
theorem look {f : State → Check α} (h : ∀ st, Blaming lines nodes (f st)) :
    Blaming lines nodes (get >>= f) := fun st => h st st

end Blaming

theorem typed_blaming (n : Node) : Blaming lines n.parts (typed lines n) := by
  refine .look fun st => ?_
  cases h : typeOf lines st.symbols n with
  | ok type => exact .pure
  | error p => exact .throw (typeOf_blames h)

theorem condition_blaming (construct : String) (n : Node) :
    Blaming lines n.parts (condition lines construct n) := by
  refine (typed_blaming n).bind fun type => ?_
  split
  · exact .pure
  · exact .throw (blames_self n.mem_parts_self (.of_ne (by simp [Cause.category])))

/-- Behind a declaration the variable is in the table. -/
theorem declare_blames {n : Node} (h : n ∈ nodes) (name : String) (type : Ty) (st : State) :
    Meets (declare lines name type n.location) st
      (fun _ st' => st'.symbols.find? name ≠ none) fun e _ => Blames lines nodes e := by
  unfold declare
  refine .bind (.ok rfl ?_)
  split
  · exact .throw (blames_self h (.of_ne (by simp [Cause.category])))
  · refine .ok rfl ?_
    rw [Symbols.find?_set, if_pos rfl]
    exact Option.some_ne_none type

theorem assign_blames {n : Node} (h : n ∈ nodes) (name : String) (type : Ty) {st : State}
    (hname : st.symbols.find? name = none → n.Refers name) :
    Meets (assign lines name type n.location) st (fun _ _ => True)
      fun e _ => Blames lines nodes e := by
  unfold assign
  refine .bind (.ok rfl ?_)
  split
  · next hnone => exact .throw (blames_self h fun _ => ⟨name, rfl, hname hnone⟩)
  · split
    · exact .ok rfl trivial
    · split
      · exact .pure trivial
      · exact .throw (blames_self h (.of_ne (by simp [Cause.category])))

theorem checkAll_blaming {ss : List Node} (h : ∀ s ∈ ss, Blaming lines s.parts (check lines s)) :
    Blaming lines (Node.partsAll ss) (checkAll lines ss) := by
  induction ss with
  | nil => exact .pure
  | cons s ss ih =>
    obtain ⟨hs, hss⟩ := List.forall_mem_cons.1 h
    rw [checkAll]
    exact (hs.mono (List.subset_append_left _ _)).bind fun _ =>
      (ih hss).mono (List.subset_append_right _ _)

/-- **The check of a statement fails at one of its nodes.** -/
theorem check_blaming (n : Node) : Blaming lines n.parts (check lines n) := by
  induction n with
  | assign name value declares l _ =>
    rw [check]
    have hself := (Node.assign name value declares l).mem_parts_self
    refine ((typed_blaming value).mono (List.subset_cons_self _ _)).bind fun type => ?_
    cases declares with
    | none => exact fun st => assign_blames hself name type fun _ => .inr ⟨value, l, rfl⟩
    | some declared =>
      exact fun st => (declare_blames hself name declared st).andThen
        (fun _ st' hst' => assign_blames hself name type fun hnone => absurd hnone hst')
        fun _ _ h => h
  | binary | var =>
    rw [check]
    exact (typed_blaming _).bind fun _ => .pure
  | int | float | string | ret => exact .pure
  | ifThen test thenBranch _ _ iht =>
    rw [check]
    refine ((condition_blaming _ test).mono fun m hm => ?_).bind fun _ => iht.mono fun m hm => ?_
    · simp [Node.parts, hm]
    · simp [Node.parts, hm]
  | ifElse test thenBranch elseBranch _ _ iht ihe =>
    rw [check]
    refine ((condition_blaming _ test).mono fun m hm => ?_).bind fun _ =>
      (iht.mono fun m hm => ?_).bind fun _ => ihe.mono fun m hm => ?_
    · simp [Node.parts, hm]
    · simp [Node.parts, hm]
    · simp [Node.parts, hm]
  | forLoop init test update body _ ihi _ ihu ihb =>
    rw [check]
    refine (ihi.mono fun m hm => ?_).bind fun _ =>
      ((condition_blaming _ test).mono fun m hm => ?_).bind fun _ =>
        (ihu.mono fun m hm => ?_).bind fun _ => ihb.mono fun m hm => ?_
    · simp [Node.parts, hm]
    · simp [Node.parts, hm]
    · simp [Node.parts, hm]
    · simp [Node.parts, hm]
  | whileLoop test body _ _ ihb =>
    rw [check]
    refine ((condition_blaming _ test).mono fun m hm => ?_).bind fun _ => ihb.mono fun m hm => ?_
    · simp [Node.parts, hm]
    · simp [Node.parts, hm]
  | retValue value l _ =>
    rw [check]
    refine ((typed_blaming value).mono (List.subset_cons_self _ _)).bind fun type => ?_
    split
    · have hself := (Node.retValue value l).mem_parts_self
      exact .throw (blames_self hself (.of_ne (by simp [Cause.category])))
    · exact .pure
  | block statements _ ih =>
    rw [check]
    exact (checkAll_blaming ih).mono (List.subset_cons_self _ _)
  | bare =>
    refine .throw fun p hp => ?_
    cases hp

/-- **The check of a program fails at one of its nodes.** -/
theorem typecheck_blames {program : List Node}
    (h : (typecheck lines program).run.1 = .error e) :
    Blames lines (Node.partsAll program) e := by
  have hblaming : Blaming lines (Node.partsAll program) (checkAll lines program) :=
    checkAll_blaming fun s _ => check_blaming s
  unfold Work.run typecheck tabulate run at h
  cases hcheck : checkAll lines program {} with
  | ok u st =>
    rw [hcheck] at h
    cases h
  | error e' st =>
    rw [hcheck] at h
    cases h
    exact (hblaming {}).of_error hcheck

end Typing

end ThreeAddress
