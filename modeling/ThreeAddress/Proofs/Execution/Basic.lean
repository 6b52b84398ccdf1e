import ThreeAddress.Proofs.Tree.Shape

/-!
# Execution

What a tree does when it is run. Values are those of literals, a store holds the values of the
variables that have been set, and an interpretation says what the operators and the zero test do.

**Expressions** (`eval`) are evaluated strictly and from left to right.

**Statements** (`Exec`) end, return or fail. A branch and a conditional loop ask whether the
condition is zero. A counting loop is its start, followed by a conditional loop whose round is the
body and then the step. A return ends everything. An expression in the place of a statement is
evaluated, and its value is dropped.

`Exec` relates a statement to its outcome. A run that does not end has none.
-/

namespace ThreeAddress

/-! ## Values and stores -/

/-- What a variable can hold. -/
inductive Value where
  | int (n : Int)
  | float (x : Float)
  | string (s : String)

/-- The values of the variables that have been set. -/
abbrev Store := String → Option Value

namespace Store

/-- The store before anything has been set. -/
def empty : Store := fun _ => none

/-- The store in which one variable has been set. -/
def set (σ : Store) (name : String) (v : Value) : Store := fun x => if x = name then some v else σ x

@[simp] theorem set_self (σ : Store) (name : String) (v : Value) : σ.set name v name = some v :=
  if_pos rfl

theorem set_ne (σ : Store) {name x : String} (v : Value) (h : x ≠ name) : σ.set name v x = σ x :=
  if_neg h

end Store

/-! ## Evaluation -/

/-- What operators and the zero test do, and how it fails to read a variable that has not been set
and to evaluate a node that has no value. -/
structure Interpretation (F : Type) where
  operate : Operator → Value → Value → Except F Value
  isZero : Value → Except F Bool
  unset : String → F
  meaningless : F

variable {F : Type} (M : Interpretation F)

/-- The value of an expression. -/
def eval (σ : Store) : Node → Except F Value
  | .int n _ => .ok (.int n)
  | .float x _ => .ok (.float x)
  | .string s _ => .ok (.string s)
  | .var name _ =>
    match σ name with
    | some v => .ok v
    | none => .error (M.unset name)
  | .binary left op right _ => do
    let v ← eval σ left
    let w ← eval σ right
    M.operate op v w
  | _ => .error M.meaningless

/-- Whether the value of a condition is zero. -/
def evalZero (σ : Store) (condition : Node) : Except F Bool := do
  M.isZero (← eval M σ condition)

/-! ## Statements -/

/-- How a run can come to its end. -/
inductive Outcome (F : Type) where
  /-- Behind the last statement. -/
  | ended
  /-- At a return, with a value or without one. -/
  | returned (value : Option Value)
  | failed (fault : F)

/-- Whether a node does something other than having a value. -/
def Node.isCommand : Node → Bool
  | .assign .. | .ifThen .. | .ifElse .. | .forLoop .. | .whileLoop .. | .ret .. | .retValue ..
  | .block .. => true
  | _ => false

/-- A conditional loop whose round is a body and then a step. -/
def Node.rounds (condition update body : Node) (location : Option Location) : Node :=
  .whileLoop condition (.block [body, update] location) location

/-- Running a node from the first store comes to the outcome, in the second store. -/
inductive Exec : Node → Store → Outcome F → Store → Prop
  | assign {name value declares location σ v} :
      eval M σ value = .ok v → Exec (.assign name value declares location) σ .ended (σ.set name v)
  | assign_fails {name value declares location σ f} :
      eval M σ value = .error f → Exec (.assign name value declares location) σ (.failed f) σ
  | block_nil {location σ} : Exec (.block [] location) σ .ended σ
  | block_cons {s ss location σ σ' o τ} :
      Exec s σ .ended σ' → Exec (.block ss location) σ' o τ → Exec (.block (s :: ss) location) σ o τ
  | block_leave {s ss location σ o τ} :
      Exec s σ o τ → o ≠ .ended → Exec (.block (s :: ss) location) σ o τ
  | ifThen_zero {condition thenBranch location σ} :
      evalZero M σ condition = .ok true → Exec (.ifThen condition thenBranch location) σ .ended σ
  | ifThen_nonzero {condition thenBranch location σ o τ} :
      evalZero M σ condition = .ok false → Exec thenBranch σ o τ →
      Exec (.ifThen condition thenBranch location) σ o τ
  | ifThen_fails {condition thenBranch location σ f} :
      evalZero M σ condition = .error f →
      Exec (.ifThen condition thenBranch location) σ (.failed f) σ
  | ifElse_zero {condition thenBranch elseBranch location σ o τ} :
      evalZero M σ condition = .ok true → Exec elseBranch σ o τ →
      Exec (.ifElse condition thenBranch elseBranch location) σ o τ
  | ifElse_nonzero {condition thenBranch elseBranch location σ o τ} :
      evalZero M σ condition = .ok false → Exec thenBranch σ o τ →
      Exec (.ifElse condition thenBranch elseBranch location) σ o τ
  | ifElse_fails {condition thenBranch elseBranch location σ f} :
      evalZero M σ condition = .error f →
      Exec (.ifElse condition thenBranch elseBranch location) σ (.failed f) σ
  | while_zero {condition body location σ} :
      evalZero M σ condition = .ok true → Exec (.whileLoop condition body location) σ .ended σ
  | while_again {condition body location σ σ' o τ} :
      evalZero M σ condition = .ok false → Exec body σ .ended σ' →
      Exec (.whileLoop condition body location) σ' o τ →
      Exec (.whileLoop condition body location) σ o τ
  | while_leave {condition body location σ o τ} :
      evalZero M σ condition = .ok false → Exec body σ o τ → o ≠ .ended →
      Exec (.whileLoop condition body location) σ o τ
  | while_fails {condition body location σ f} :
      evalZero M σ condition = .error f →
      Exec (.whileLoop condition body location) σ (.failed f) σ
  | forLoop {init condition update body location σ o τ} :
      Exec (.block [init, .rounds condition update body location] location) σ o τ →
      Exec (.forLoop init condition update body location) σ o τ
  | ret {location σ} : Exec (.ret location) σ (.returned none) σ
  | retValue {value location σ v} :
      eval M σ value = .ok v → Exec (.retValue value location) σ (.returned (some v)) σ
  | retValue_fails {value location σ f} :
      eval M σ value = .error f → Exec (.retValue value location) σ (.failed f) σ
  | value {e σ v} : e.isCommand = false → eval M σ e = .ok v → Exec e σ .ended σ
  | value_fails {e σ f} : e.isCommand = false → eval M σ e = .error f → Exec e σ (.failed f) σ

variable {M}

/-! ## Blocks -/

/-- A block runs its first statement, and then the rest unless that has left the block. -/
theorem exec_block_cons_iff {s : Node} {ss : List Node} {location : Option Location} {σ τ : Store}
    {o : Outcome F} :
    Exec M (.block (s :: ss) location) σ o τ ↔
      (∃ σ', Exec M s σ .ended σ' ∧ Exec M (.block ss location) σ' o τ) ∨
        (Exec M s σ o τ ∧ o ≠ .ended) := by
  constructor
  · intro h
    cases h with
    | block_cons hs hss => exact .inl ⟨_, hs, hss⟩
    | block_leave hs ho => exact .inr ⟨hs, ho⟩
    | value hc _ | value_fails hc _ => simp [Node.isCommand] at hc
  · intro hexec
    rcases hexec with ⟨σ', hs, hss⟩ | ⟨hs, ho⟩
    · exact .block_cons hs hss
    · exact .block_leave hs ho

theorem exec_block_nil_iff {location : Option Location} {σ τ : Store} {o : Outcome F} :
    Exec M (.block [] location) σ o τ ↔ o = .ended ∧ τ = σ := by
  constructor
  · intro h
    cases h with
    | block_nil => exact ⟨rfl, rfl⟩
    | value hc _ | value_fails hc _ => simp [Node.isCommand] at hc
  · intro hexec
    obtain ⟨rfl, rfl⟩ := hexec
    exact .block_nil

/-- A block of one statement runs as the statement. -/
theorem exec_block_singleton_iff {s : Node} {l : Option Location} {σ τ : Store} {o : Outcome F} :
    Exec M (.block [s] l) σ o τ ↔ Exec M s σ o τ := by
  rw [exec_block_cons_iff]
  simp only [exec_block_nil_iff]
  constructor
  · intro hexec
    rcases hexec with ⟨σ', hs, rfl, rfl⟩ | ⟨hs, -⟩
    · exact hs
    · exact hs
  · intro hs
    by_cases ho : o = .ended
    · subst ho
      exact .inl ⟨τ, hs, rfl, rfl⟩
    · exact .inr ⟨hs, ho⟩

/-- In front of other nodes a node can be replaced by one with the same runs. -/
theorem Exec.replace_head {s s' : Node} {ss : List Node} {l : Option Location} {σ σ' τ : Store}
    {o : Outcome F} (h : Exec M (.block (s :: ss) l) σ o τ)
    (hs : ∀ o τ, Exec M s σ o τ → Exec M s' σ' o τ) : Exec M (.block (s' :: ss) l) σ' o τ := by
  rcases exec_block_cons_iff.1 h with ⟨σ₁, h₁, h₂⟩ | ⟨h₁, ho⟩
  · exact .block_cons (hs _ _ h₁) h₂
  · exact .block_leave (hs _ _ h₁) ho

/-- Two nodes in front of others run as a block of their own. -/
theorem Exec.group {s s' : Node} {ss : List Node} {l : Option Location} {σ τ : Store}
    {o : Outcome F} (h : Exec M (.block (s :: s' :: ss) l) σ o τ) :
    Exec M (.block (.block [s, s'] l :: ss) l) σ o τ := by
  rcases exec_block_cons_iff.1 h with ⟨σ₁, h₁, h⟩ | ⟨h₁, ho⟩
  · rcases exec_block_cons_iff.1 h with ⟨σ₂, h₂, h⟩ | ⟨h₂, ho⟩
    · exact .block_cons (.block_cons h₁ (exec_block_singleton_iff.2 h₂)) h
    · exact .block_leave (.block_cons h₁ (exec_block_singleton_iff.2 h₂)) ho
  · exact .block_leave (.block_leave h₁ ho) ho

theorem exec_forLoop_iff {init condition update body : Node} {location : Option Location}
    {σ τ : Store} {o : Outcome F} :
    Exec M (.forLoop init condition update body location) σ o τ ↔
      Exec M (.block [init, .rounds condition update body location] location) σ o τ := by
  constructor
  · intro h
    cases h with
    | forLoop h => exact h
    | value hc _ | value_fails hc _ => simp [Node.isCommand] at hc
  · exact .forLoop

end ThreeAddress
