import ThreeAddress.Compilation
import ThreeAddress.Proofs.Steps
import ThreeAddress.Proofs.Tree.Shape

/-!
# The check does not look at notices

A check starts behind the notices of other phases, and which these are depends on who has called it.
It only adds to them, so its problem, with place and line, and its table are those of a check that
starts without notices.

* `Heedless`: a step of which that holds; one rule for each way to build a step.
* `typecheck_ok_iff`, `typecheck_error_iff`: the outcome of a check, behind any notices.
-/

namespace ThreeAddress.Typing

variable {α β : Type}

/-- What a step comes to, without its notices. -/
def summary : EStateM.Result Failure State α → Except Failure (α × Symbols)
  | .ok a s => .ok (a, s.symbols)
  | .error e _ => .error e

/-- With the same table the step comes to the same, whatever the notices are. -/
def Heedless (x : Check α) : Prop := ∀ s t, s.symbols = t.symbols → summary (x s) = summary (x t)

namespace Heedless

theorem pure {a : α} : Heedless (Pure.pure a : Check α) :=
  fun _ _ hst => congrArg (fun symbols => Except.ok (a, symbols)) hst

theorem throw {e : Failure} : Heedless (MonadExcept.throw e : Check α) := fun _ _ _ => rfl

theorem bind {x : Check α} {f : α → Check β} (hx : Heedless x) (hf : ∀ a, Heedless (f a)) :
    Heedless (x >>= f) := by
  intro s t hst
  have hsame := hx s t hst
  cases hxs : x s with
  | ok a s' =>
    cases hxt : x t with
    | ok b t' =>
      rw [hxs, hxt] at hsame
      obtain ⟨rfl, hst'⟩ := Prod.mk.inj (Except.ok.inj hsame)
      rw [bind_of_ok hxs, bind_of_ok hxt]
      exact hf a s' t' hst'
    | error e t' =>
      rw [hxs, hxt] at hsame
      cases hsame
  | error e s' =>
    cases hxt : x t with
    | ok b t' =>
      rw [hxs, hxt] at hsame
      cases hsame
    | error e' t' =>
      rw [hxs, hxt] at hsame
      cases hsame
      rw [bind_of_error hxs, bind_of_error hxt]
      rfl

/-- The step looks at its state. -/
theorem look {f : State → Check α}
    (h : ∀ s t, s.symbols = t.symbols → summary (f s s) = summary (f t t)) :
    Heedless (get >>= f) :=
  h

end Heedless

/-! ## Statements -/

variable (lines : List String)

theorem typed_heedless (n : Node) : Heedless (typed lines n) := by
  refine .look fun s t hst => ?_
  rw [hst]
  cases typeOf lines t.symbols n with
  | ok type => exact Heedless.pure s t hst
  | error p => rfl

theorem condition_heedless (construct : String) (n : Node) :
    Heedless (condition lines construct n) := by
  refine (typed_heedless lines n).bind fun type => ?_
  split
  · exact .pure
  · exact .throw

theorem declare_heedless (name : String) (type : Ty) (l : Option Location) :
    Heedless (declare lines name type l) := by
  refine .look fun s t hst => ?_
  rw [hst]
  cases t.symbols.find? name with
  | some present => rfl
  | none => rfl

theorem assign_heedless (name : String) (value : Ty) (l : Option Location) :
    Heedless (assign lines name value l) := by
  refine .look fun s t hst => ?_
  rw [hst]
  cases t.symbols.find? name with
  | none => rfl
  | some target =>
    dsimp only
    split
    · exact congrArg (fun symbols => Except.ok ((), symbols)) hst
    · split
      · exact Heedless.pure s t hst
      · rfl

theorem checkAll_heedless_of {ss : List Node} (h : ∀ s ∈ ss, Heedless (check lines s)) :
    Heedless (checkAll lines ss) := by
  induction ss with
  | nil => exact .pure
  | cons s ss ih =>
    obtain ⟨hs, hss⟩ := List.forall_mem_cons.1 h
    exact hs.bind fun _ => ih hss

theorem check_heedless (n : Node) : Heedless (check lines n) := by
  induction n with
  | assign name value declares l _ =>
    rw [check]
    refine (typed_heedless lines value).bind fun type => ?_
    cases declares with
    | none => exact assign_heedless lines name type l
    | some declared =>
      exact (declare_heedless lines name declared l).bind fun _ => assign_heedless lines name type l
  | binary | var =>
    rw [check]
    exact (typed_heedless lines _).bind fun _ => .pure
  | int | float | string | ret => exact .pure
  | ifThen test thenBranch _ _ iht =>
    rw [check]
    exact (condition_heedless lines _ test).bind fun _ => iht
  | ifElse test thenBranch elseBranch _ _ iht ihe =>
    rw [check]
    exact (condition_heedless lines _ test).bind fun _ => iht.bind fun _ => ihe
  | forLoop init test update body _ ihi _ ihu ihb =>
    rw [check]
    exact ihi.bind fun _ => (condition_heedless lines _ test).bind fun _ => ihu.bind fun _ => ihb
  | whileLoop test body _ _ ihb =>
    rw [check]
    exact (condition_heedless lines _ test).bind fun _ => ihb
  | retValue value l _ =>
    rw [check]
    refine (typed_heedless lines value).bind fun type => ?_
    split
    · exact .throw
    · exact .pure
  | block statements _ ih =>
    rw [check]
    exact checkAll_heedless_of lines ih
  | bare => exact .throw

/-! ## Programs -/

theorem summary_checkAll (program : List Node) (notices : List Notice) :
    summary (checkAll lines program { notices }) = summary (checkAll lines program {}) :=
  checkAll_heedless_of lines (fun s _ => check_heedless lines s) _ _ rfl

variable {lines} {program : List Node}

/-- A check succeeds behind some notices iff it does without them. -/
theorem typecheck_ok_iff {symbols : Symbols} (notices : List Notice) :
    (∃ after, typecheck lines program notices = .ok symbols after) ↔
      (typecheck lines program).run.1 = .ok symbols := by
  have hsame := summary_checkAll lines program notices
  unfold Work.run typecheck tabulate run
  cases h : checkAll lines program { notices } <;> cases h' : checkAll lines program {} <;>
    rw [h, h'] at hsame <;> simp_all [summary]

/-- A check fails behind some notices as it does without them. -/
theorem typecheck_error_iff {e : Failure} (notices : List Notice) :
    (∃ after, typecheck lines program notices = .error e after) ↔
      (typecheck lines program).run.1 = .error e := by
  have hsame := summary_checkAll lines program notices
  unfold Work.run typecheck tabulate run
  cases h : checkAll lines program { notices } <;> cases h' : checkAll lines program {} <;>
    rw [h, h'] at hsame <;> simp_all [summary]

end ThreeAddress.Typing
