import ThreeAddress.Code.Basic
import ThreeAddress.Proofs.Execution.Steps

/-!
# The machine

How three-address code is run. The machine stands at a line and has a store in which temporaries
are names like any other. A jump goes to the line of its label, and the code ends at a return or
behind its last line.

Main definitions: `Machine.step`, one instruction; `Machine.Runs`, a run from the first line with
its outcome; `CodeAt`, a piece of code at its place within a whole.
-/

namespace ThreeAddress

/-! ## Names and labels -/

theorem tempName_injective {m n : Nat} (h : tempName m = tempName n) : m = n := by
  have hdigits : Nat.toDigits 10 m = Nat.toDigits 10 n := by
    have hlist := congrArg String.toList h
    simpa [tempName, Nat.toString_eq_ofList_toDigits] using hlist
  have hvalue := congrArg (Nat.ofDigitChars 10 · 0) hdigits
  simpa using hvalue

/-- The label that an instruction sets. -/
def Instruction.label? : Instruction → Option Nat
  | .label number => some number
  | _ => none

/-- The labels that are set in some code, in order. -/
def labelsOf (code : List Instruction) : List Nat := code.filterMap Instruction.label?

@[simp] theorem labelsOf_nil : labelsOf [] = [] := rfl

@[simp] theorem labelsOf_append (code code' : List Instruction) :
    labelsOf (code ++ code') = labelsOf code ++ labelsOf code' :=
  List.filterMap_append

theorem labelsOf_cons (i : Instruction) (code : List Instruction) :
    labelsOf (i :: code) = i.label?.toList ++ labelsOf code := by
  cases h : i.label? with
  | none => exact List.filterMap_cons_none h
  | some number => exact List.filterMap_cons_some h

theorem count_labelsOf_append (code code' : List Instruction) (n : Nat) :
    (labelsOf (code ++ code')).count n = (labelsOf code).count n + (labelsOf code').count n := by
  rw [labelsOf_append, List.count_append]

theorem count_labelsOf_cons (i : Instruction) (code : List Instruction) (n : Nat) :
    (labelsOf (i :: code)).count n =
      (if i.label? = some n then 1 else 0) + (labelsOf code).count n := by
  rw [labelsOf_cons, List.count_append]
  cases h : i.label? <;> simp [List.count_cons]

/-- The line of a label. -/
def lineOf? (code : List Instruction) (number : Nat) : Option Nat :=
  code.findIdx? fun i => i.label? == some number

/-! ## Pieces of code -/

/-- The piece stands at the given line of the code. -/
def CodeAt (code : List Instruction) (line : Nat) (piece : List Instruction) : Prop :=
  ∀ k, k < piece.length → code[line + k]? = piece[k]?

section CodeAt

variable {code piece piece' : List Instruction} {i : Instruction} {line : Nat}

theorem CodeAt.whole (code : List Instruction) : CodeAt code 0 code := fun k _ => by
  rw [Nat.zero_add]

theorem CodeAt.head (h : CodeAt code line (i :: piece)) : code[line]? = some i := by
  simpa using h 0 (by simp)

theorem CodeAt.tail (h : CodeAt code line (i :: piece)) : CodeAt code (line + 1) piece := by
  intro k hk
  have hnext := h (k + 1) (by simpa using hk)
  rwa [← Nat.add_assoc, Nat.add_right_comm, List.getElem?_cons_succ] at hnext

theorem CodeAt.left (h : CodeAt code line (piece ++ piece')) : CodeAt code line piece := by
  intro k hk
  rw [h k (by rw [List.length_append]; omega), List.getElem?_append_left hk]

theorem CodeAt.right (h : CodeAt code line (piece ++ piece')) :
    CodeAt code (line + piece.length) piece' := by
  intro k hk
  have hmoved := h (piece.length + k) (by rw [List.length_append]; omega)
  rwa [← Nat.add_assoc, List.getElem?_append_right (Nat.le_add_right _ _),
    Nat.add_sub_cancel_left] at hmoved

/-- A label that is set once is found where it is set. -/
theorem lineOf?_eq {number : Nat} (hnodup : (labelsOf code).Nodup)
    (h : code[line]? = some (.label number)) : lineOf? code number = some line := by
  induction code generalizing line with
  | nil => simp at h
  | cons i code ih =>
    rw [lineOf?, List.findIdx?_cons]
    cases line with
    | zero =>
      rw [List.getElem?_cons_zero, Option.some.injEq] at h
      subst h
      simp [Instruction.label?]
    | succ line =>
      rw [List.getElem?_cons_succ] at h
      have hmem : number ∈ labelsOf code :=
        List.mem_filterMap.2 ⟨_, List.mem_of_getElem? h, rfl⟩
      cases hi : i.label? with
      | none =>
        rw [labelsOf_cons, hi] at hnodup
        have hrest := ih hnodup h
        rw [lineOf?] at hrest
        simp [hrest]
      | some other =>
        rw [labelsOf_cons, hi, Option.toList_some, List.singleton_append,
          List.nodup_cons] at hnodup
        have hne : other ≠ number := fun heq => hnodup.1 (heq ▸ hmem)
        have hrest := ih hnodup.2 h
        rw [lineOf?] at hrest
        simp [hne, hrest]

end CodeAt

/-! ## Running code -/

variable {F : Type} (M : Interpretation F)

/-- The value of an operand. -/
def readOperand (σ : Store) : Operand → Except F Value
  | .int n => .ok (.int n)
  | .float x => .ok (.float x)
  | .string s => .ok (.string s)
  | .var name =>
    match σ name with
    | some v => .ok v
    | none => .error (M.unset name)
  | .temp number =>
    match σ (tempName number) with
    | some v => .ok v
    | none => .error (M.unset (tempName number))

/-- The result of an operation on operands. -/
def operateOn (σ : Store) (left : Operand) (op : Operator) (right : Operand) : Except F Value := do
  let v ← readOperand M σ left
  let w ← readOperand M σ right
  M.operate op v w

/-- Whether the value of an operand is zero. -/
def readZero (σ : Store) (operand : Operand) : Except F Bool := do
  M.isZero (← readOperand M σ operand)

namespace Machine

/-- The machine before a line, or at its end. -/
inductive State (F : Type) where
  | before (line : Nat) (store : Store)
  | done (outcome : Outcome F) (store : Store)

/-- The state at a label. -/
def goto (code : List Instruction) (number : Nat) (σ : Store) : State F :=
  match lineOf? code number with
  | some line => .before line σ
  | none => .done (.failed M.meaningless) σ

/-- What an instruction at a line does. -/
def perform (code : List Instruction) (line : Nat) (σ : Store) : Instruction → State F
  | .binary target left op right =>
    match operateOn M σ left op right with
    | .ok v => .before (line + 1) (σ.set (tempName target) v)
    | .error f => .done (.failed f) σ
  | .copy name value =>
    match readOperand M σ value with
    | .ok v => .before (line + 1) (σ.set name v)
    | .error f => .done (.failed f) σ
  | .jumpUnless condition number =>
    match readZero M σ condition with
    | .ok true => goto M code number σ
    | .ok false => .before (line + 1) σ
    | .error f => .done (.failed f) σ
  | .jump number => goto M code number σ
  | .label _ => .before (line + 1) σ
  | .ret => .done (.returned none) σ
  | .retValue value =>
    match readOperand M σ value with
    | .ok v => .done (.returned (some v)) σ
    | .error f => .done (.failed f) σ

/-- One step of the machine. -/
def step (code : List Instruction) : State F → State F
  | .before line σ =>
    match code[line]? with
    | some i => perform M code line σ i
    | none => .done .ended σ
  | .done o σ => .done o σ

/-- Code run from its first line comes to the outcome, in the second store. -/
def Runs (code : List Instruction) (σ : Store) (o : Outcome F) (τ : Store) : Prop :=
  Leads (step M code) (.before 0 σ) (.done o τ)

/-- Code runs forever. -/
def Diverges (code : List Instruction) (σ : Store) : Prop :=
  ∀ n : Nat, ∃ line τ, (step M code)^[n] (.before 0 σ) = .before line τ

/-- Where the machine is after a piece of code with the given outcome: at the line behind it, or at
its end. -/
def landing (line : Nat) : Outcome F → Store → State F
  | .ended, τ => .before line τ
  | o, τ => .done o τ

variable {M} {code : List Instruction}

@[simp] theorem step_done (o : Outcome F) (σ : Store) : step M code (.done o σ) = .done o σ := rfl

theorem step_before {line : Nat} {i : Instruction} (h : code[line]? = some i) (σ : Store) :
    step M code (.before line σ) = perform M code line σ i := by
  rw [step, h]

theorem landing_of_ne {o : Outcome F} (ho : o ≠ .ended) (line : Nat) (τ : Store) :
    landing line o τ = .done o τ := by
  cases o with
  | ended => exact absurd rfl ho
  | returned v => rfl
  | failed f => rfl

/-- Code runs forever iff it has no outcome. -/
theorem diverges_iff {σ : Store} : Diverges M code σ ↔ ∀ o τ, ¬ Runs M code σ o τ := by
  constructor
  · intro h o τ ⟨n, hn⟩
    obtain ⟨line, τ', hrun⟩ := h n
    rw [hn] at hrun
    cases hrun
  · intro h n
    cases hn : (step M code)^[n] (.before 0 σ) with
    | before line τ => exact ⟨line, τ, rfl⟩
    | done o τ => exact absurd ⟨n, hn⟩ (h o τ)

end Machine

end ThreeAddress
