import Mathlib.Logic.Function.Iterate
import ThreeAddress.Proofs.Execution.Basic

/-!
# Execution step by step

The same runs as those of `Exec`, one step at a time. A state holds the nodes that are still to be
run. A step takes the first of them and either deals with it or puts its parts in its place, so a
run that does not end shows as one whose states never are done.

* `exec_iff_leads`: a run has an outcome in the sense of `Exec` iff its steps lead there.
* `diverges_iff`: a run goes on forever iff it has no outcome.
* `Exec.unique`: there is at most one outcome.
-/

namespace ThreeAddress

/-! ## Runs of a step function -/

section Leads

variable {α : Type} {f : α → α} {a b c d : α}

/-- Some number of steps leads from one state to another. -/
def Leads (f : α → α) (a b : α) : Prop := ∃ n : Nat, f^[n] a = b

theorem Leads.refl : Leads f a a := ⟨0, rfl⟩

theorem Leads.trans (h : Leads f a b) (h' : Leads f b c) : Leads f a c := by
  obtain ⟨n, rfl⟩ := h
  obtain ⟨m, rfl⟩ := h'
  exact ⟨m + n, Function.iterate_add_apply f m n a⟩

/-- One step first. -/
theorem Leads.head (h : f a = b) (h' : Leads f b c) : Leads f a c := by
  subst h
  exact Leads.trans ⟨1, rfl⟩ h'

theorem Leads.single (h : f a = b) : Leads f a b := Leads.head h .refl

/-- A state on the way to a last one lies before it. -/
theorem iterate_sub_of_fixed {n m : Nat} (hd : f d = d) (hn : f^[n] a = d) (hm : f^[m] a = b)
    (hb : b ≠ d) : m ≤ n ∧ f^[n - m] b = d := by
  by_cases hmn : m ≤ n
  · refine ⟨hmn, ?_⟩
    rw [← hm, ← Function.iterate_add_apply, Nat.sub_add_cancel hmn, hn]
  · refine absurd ?_ hb
    rw [← hm, show m = (m - n) + n by omega, Function.iterate_add_apply, hn]
    exact Function.iterate_fixed hd _

theorem Leads.of_fixed (hd : f d = d) (h : Leads f a d) (h' : Leads f a b) : Leads f b d := by
  obtain ⟨n, hn⟩ := h
  obtain ⟨m, hm⟩ := h'
  by_cases hb : b = d
  · exact hb ▸ .refl
  · exact ⟨n - m, (iterate_sub_of_fixed hd hn hm hb).2⟩

/-- There is at most one last state. -/
theorem Leads.unique (hd : f d = d) (hc : f c = c) (h : Leads f a d) (h' : Leads f a c) :
    c = d := by
  obtain ⟨n, hn⟩ := Leads.of_fixed hd h h'
  rw [← hn, Function.iterate_fixed hc]

/-- What each step preserves holds in all states of a run. -/
theorem Leads.invariant {P : α → Prop} (h : Leads f a b) (hstep : ∀ s, P s → P (f s))
    (ha : P a) : P b := by
  obtain ⟨n, rfl⟩ := h
  induction n generalizing a with
  | zero => exact ha
  | succ n ih =>
    rw [Function.iterate_succ_apply]
    exact ih (hstep a ha)

end Leads

variable {F : Type} (M : Interpretation F)

namespace Execution

/-! ## States and steps -/

/-- A run in progress, with the nodes still to be run, or at its end. -/
inductive State (F : Type) where
  | running (todo : List Node) (store : Store)
  | done (outcome : Outcome F) (store : Store)

/-- One step of a run. -/
def step : State F → State F
  | .running [] σ => .done .ended σ
  | .running (.assign name value _ _ :: todo) σ =>
    match eval M σ value with
    | .ok v => .running todo (σ.set name v)
    | .error f => .done (.failed f) σ
  | .running (.block [] _ :: todo) σ => .running todo σ
  | .running (.block (s :: ss) location :: todo) σ => .running (s :: .block ss location :: todo) σ
  | .running (.ifThen condition thenBranch _ :: todo) σ =>
    match evalZero M σ condition with
    | .ok true => .running todo σ
    | .ok false => .running (thenBranch :: todo) σ
    | .error f => .done (.failed f) σ
  | .running (.ifElse condition thenBranch elseBranch _ :: todo) σ =>
    match evalZero M σ condition with
    | .ok true => .running (elseBranch :: todo) σ
    | .ok false => .running (thenBranch :: todo) σ
    | .error f => .done (.failed f) σ
  | .running (.whileLoop condition body location :: todo) σ =>
    match evalZero M σ condition with
    | .ok true => .running todo σ
    | .ok false => .running (body :: .whileLoop condition body location :: todo) σ
    | .error f => .done (.failed f) σ
  | .running (.forLoop init condition update body location :: todo) σ =>
    .running (.block [init, .rounds condition update body location] location :: todo) σ
  | .running (.ret _ :: _) σ => .done (.returned none) σ
  | .running (.retValue value _ :: _) σ =>
    match eval M σ value with
    | .ok v => .done (.returned (some v)) σ
    | .error f => .done (.failed f) σ
  | .running (e :: todo) σ =>
    match eval M σ e with
    | .ok _ => .running todo σ
    | .error f => .done (.failed f) σ
  | .done o σ => .done o σ

/-- Where a run is after a node with the given outcome: at the nodes behind it, or at its end. -/
def landing (todo : List Node) : Outcome F → Store → State F
  | .ended, τ => .running todo τ
  | o, τ => .done o τ

variable {M}

@[simp] theorem step_done (o : Outcome F) (σ : Store) : step M (.done o σ) = .done o σ := rfl

theorem landing_of_ne {o : Outcome F} (ho : o ≠ .ended) (todo : List Node) (τ : Store) :
    landing todo o τ = .done o τ := by
  cases o with
  | ended => exact absurd rfl ho
  | returned v => rfl
  | failed f => rfl

theorem step_value {e : Node} (he : e.isCommand = false) (todo : List Node) (σ : Store) :
    step M (.running (e :: todo) σ) =
      match eval M σ e with
      | .ok _ => .running todo σ
      | .error f => .done (.failed f) σ := by
  cases e <;> first | rfl | simp [Node.isCommand] at he

/-! ## From outcomes to steps -/

/-- The steps of a node lead to its outcome, whatever is still to be run behind it. -/
theorem leads_of_exec {s : Node} {σ τ : Store} {o : Outcome F} (h : Exec M s σ o τ)
    (todo : List Node) : Leads (step M) (.running (s :: todo) σ) (landing todo o τ) := by
  induction h generalizing todo with
  | assign he | assign_fails he | retValue he | retValue_fails he =>
    exact .single (by simp only [step, he]; rfl)
  | block_nil | ret => exact .single rfl
  | block_cons _ _ ihs ihss => exact .head rfl ((ihs _).trans (ihss todo))
  | block_leave _ ho ih =>
    rw [landing_of_ne ho todo, ← landing_of_ne ho]
    exact .head rfl (ih _)
  | ifThen_zero ht | ifThen_fails ht | ifElse_fails ht | while_zero ht | while_fails ht =>
    exact .single (by simp only [step, ht]; rfl)
  | ifThen_nonzero ht _ ih | ifElse_zero ht _ ih | ifElse_nonzero ht _ ih =>
    exact .head (by simp only [step, ht]) (ih todo)
  | while_again ht _ _ ihb ih =>
    exact .head (by simp only [step, ht]) ((ihb _).trans (ih todo))
  | @while_leave condition body location _ _ _ ht _ ho ih =>
    rw [landing_of_ne ho todo, ← landing_of_ne ho]
    exact .head (by simp only [step, ht]) (ih (.whileLoop condition body location :: todo))
  | forLoop _ ih => exact .head rfl (ih todo)
  | value hc he | value_fails hc he => exact .single (by rw [step_value hc, he]; rfl)

/-! ## From steps to outcomes -/

/-- A run that has an outcome still has it with one step more in front. -/
theorem exec_of_step {todo todo' : List Node} {σ σ' τ : Store} {o : Outcome F}
    (hstep : step M (.running todo σ) = .running todo' σ')
    (h : Exec M (.block todo' none) σ' o τ) : Exec M (.block todo none) σ o τ := by
  cases todo with
  | nil => cases hstep
  | cons s todo =>
    cases s with
    | assign name value declares l =>
      cases he : eval M σ value <;> simp only [step, he] at hstep <;> cases hstep
      exact .block_cons (.assign he) h
    | block ss l =>
      cases ss with
      | nil =>
        cases hstep
        exact .block_cons .block_nil h
      | cons s ss =>
        cases hstep
        refine h.group.replace_head fun o τ h => ?_
        rcases exec_block_cons_iff.1 h with ⟨σ₁, h₁, h₂⟩ | ⟨h₁, ho⟩
        · exact .block_cons h₁ (exec_block_singleton_iff.1 h₂)
        · exact .block_leave h₁ ho
    | ifThen c t l =>
      rcases ht : evalZero M σ c with f | zero
      · simp only [step, ht] at hstep; cases hstep
      cases zero <;> simp only [step, ht] at hstep <;> cases hstep
      · exact h.replace_head fun o τ h => .ifThen_nonzero ht h
      · exact .block_cons (.ifThen_zero ht) h
    | ifElse c t e l =>
      rcases ht : evalZero M σ c with f | zero
      · simp only [step, ht] at hstep; cases hstep
      cases zero <;> simp only [step, ht] at hstep <;> cases hstep
      · exact h.replace_head fun o τ h => .ifElse_nonzero ht h
      · exact h.replace_head fun o τ h => .ifElse_zero ht h
    | whileLoop c b l =>
      rcases ht : evalZero M σ c with f | zero
      · simp only [step, ht] at hstep; cases hstep
      cases zero <;> simp only [step, ht] at hstep <;> cases hstep
      · refine h.group.replace_head fun o τ h => ?_
        rcases exec_block_cons_iff.1 h with ⟨σ₁, h₁, h₂⟩ | ⟨h₁, ho⟩
        · exact .while_again ht h₁ (exec_block_singleton_iff.1 h₂)
        · exact .while_leave ht h₁ ho
      · exact .block_cons (.while_zero ht) h
    | forLoop i c u b l =>
      cases hstep
      exact h.replace_head fun o τ h => .forLoop h
    | ret l => cases hstep
    | retValue value l =>
      cases he : eval M σ value <;> simp only [step, he] at hstep <;> cases hstep
    | binary | int | float | string | var | bare =>
      rw [step_value rfl] at hstep
      split at hstep <;> cases hstep
      exact .block_cons (.value rfl ‹_›) h

/-- A run whose next step is the last one. -/
theorem exec_of_last_step {todo : List Node} {σ τ : Store} {o : Outcome F}
    (hstep : step M (.running todo σ) = .done o τ) : Exec M (.block todo none) σ o τ := by
  cases todo with
  | nil =>
    cases hstep
    exact .block_nil
  | cons s todo =>
    suffices h : Exec M s σ o τ ∧ o ≠ .ended from .block_leave h.1 h.2
    cases s with
    | assign name value declares l =>
      cases he : eval M σ value <;> simp only [step, he] at hstep <;> cases hstep
      exact ⟨.assign_fails he, nofun⟩
    | block ss l => cases ss <;> cases hstep
    | ifThen c t l =>
      rcases ht : evalZero M σ c with f | zero
      · simp only [step, ht] at hstep; cases hstep
        exact ⟨.ifThen_fails ht, nofun⟩
      cases zero <;> simp only [step, ht] at hstep <;> cases hstep
    | ifElse c t e l =>
      rcases ht : evalZero M σ c with f | zero
      · simp only [step, ht] at hstep; cases hstep
        exact ⟨.ifElse_fails ht, nofun⟩
      cases zero <;> simp only [step, ht] at hstep <;> cases hstep
    | whileLoop c b l =>
      rcases ht : evalZero M σ c with f | zero
      · simp only [step, ht] at hstep; cases hstep
        exact ⟨.while_fails ht, nofun⟩
      cases zero <;> simp only [step, ht] at hstep <;> cases hstep
    | forLoop i c u b l => cases hstep
    | ret l =>
      cases hstep
      exact ⟨.ret, nofun⟩
    | retValue value l =>
      cases he : eval M σ value <;> simp only [step, he] at hstep <;> cases hstep
      · exact ⟨.retValue_fails he, nofun⟩
      · exact ⟨.retValue he, nofun⟩
    | binary | int | float | string | var | bare =>
      rw [step_value rfl] at hstep
      split at hstep <;> cases hstep
      exact ⟨.value_fails rfl ‹_›, nofun⟩

theorem exec_of_iterate {n : Nat} {todo : List Node} {σ τ : Store} {o : Outcome F}
    (h : (step M)^[n] (.running todo σ) = .done o τ) : Exec M (.block todo none) σ o τ := by
  induction n generalizing todo σ with
  | zero => cases h
  | succ n ih =>
    rw [Function.iterate_succ_apply] at h
    cases hstep : step M (.running todo σ) with
    | running todo' σ' => exact exec_of_step hstep (ih (hstep ▸ h))
    | done o' τ' =>
      rw [hstep, Function.iterate_fixed (step_done o' τ')] at h
      cases h
      exact exec_of_last_step hstep

end Execution

open Execution

/-! ## Both views -/

variable {M}

/-- A node has an outcome iff its steps lead there. -/
theorem exec_iff_leads {s : Node} {σ τ : Store} {o : Outcome F} :
    Exec M s σ o τ ↔ Leads (step M) (.running [s] σ) (.done o τ) := by
  constructor
  · intro h
    have hrun := leads_of_exec h []
    cases o with
    | ended => exact hrun.trans (.single rfl)
    | returned v => exact hrun
    | failed f => exact hrun
  · intro hleads
    obtain ⟨n, hn⟩ := hleads
    exact exec_block_singleton_iff.1 (exec_of_iterate hn)

theorem Exec.unique {s : Node} {σ τ τ' : Store} {o o' : Outcome F} (h : Exec M s σ o τ)
    (h' : Exec M s σ o' τ') : o' = o ∧ τ' = τ := by
  have heq := Leads.unique (step_done o τ) (step_done o' τ') (exec_iff_leads.1 h)
    (exec_iff_leads.1 h')
  cases heq
  exact ⟨rfl, rfl⟩

variable (M) in
/-- A node runs forever. -/
def Diverges (s : Node) (σ : Store) : Prop :=
  ∀ n : Nat, ∃ todo τ, (step M)^[n] (.running [s] σ) = .running todo τ

/-- A node runs forever iff it has no outcome. -/
theorem diverges_iff {s : Node} {σ : Store} : Diverges M s σ ↔ ∀ o τ, ¬ Exec M s σ o τ := by
  constructor
  · intro h o τ hex
    obtain ⟨n, hn⟩ := exec_iff_leads.1 hex
    obtain ⟨todo, τ', hrun⟩ := h n
    rw [hn] at hrun
    cases hrun
  · intro h n
    cases hn : (step M)^[n] (.running [s] σ) with
    | running todo τ => exact ⟨todo, τ, rfl⟩
    | done o τ => exact absurd (exec_iff_leads.2 ⟨n, hn⟩) (h o τ)

end ThreeAddress
