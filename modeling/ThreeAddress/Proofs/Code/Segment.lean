import ThreeAddress.Proofs.Code.Emission

/-!
# The code of expressions

What the machine does in the code of an expression, wherever that stands in a whole.

* `AgreeBelow t`: two stores agree on all names but the temporaries from `t` on. The code of an
  expression changes nothing else.
* `Computes.delivers`: the code of an expression arrives behind itself with the value in its
  operand, or fails. An operand that fails to be read may do so only later, when an instruction
  reads it: the code of `x + y / z` divides before it looks at `x`.
-/

namespace ThreeAddress

open Machine

variable {F : Type} {M : Interpretation F} {code : List Instruction}

/-! ## Stores up to temporaries -/

/-- The stores agree on all names but the temporaries from `t` on. -/
def AgreeBelow (t : Nat) (σ τ : Store) : Prop :=
  ∀ x, (∀ n, t ≤ n → x ≠ tempName n) → τ x = σ x

theorem AgreeBelow.refl (t : Nat) (σ : Store) : AgreeBelow t σ σ := fun _ _ => rfl

theorem AgreeBelow.symm {t : Nat} {σ τ : Store} (h : AgreeBelow t σ τ) : AgreeBelow t τ σ :=
  fun x hx => (h x hx).symm

theorem AgreeBelow.trans {t : Nat} {σ τ υ : Store} (h : AgreeBelow t σ τ)
    (h' : AgreeBelow t τ υ) : AgreeBelow t σ υ :=
  fun x hx => (h' x hx).trans (h x hx)

theorem AgreeBelow.mono {t t' : Nat} {σ τ : Store} (h : AgreeBelow t' σ τ) (ht : t ≤ t') :
    AgreeBelow t σ τ :=
  fun x hx => h x fun n hn => hx n (Nat.le_trans ht hn)

theorem AgreeBelow.set {t : Nat} {σ τ : Store} (h : AgreeBelow t σ τ) (name : String) (v : Value) :
    AgreeBelow t (σ.set name v) (τ.set name v) := by
  intro x hx
  by_cases hname : x = name
  · rw [hname, Store.set_self, Store.set_self]
  · rw [Store.set_ne _ _ hname, Store.set_ne _ _ hname, h x hx]

theorem AgreeBelow.set_temp {t n : Nat} (hn : t ≤ n) (σ : Store) (v : Value) :
    AgreeBelow t σ (σ.set (tempName n) v) :=
  fun _ hx => Store.set_ne σ v (hx n hn)

/-! ## Operands -/

/-- The operand cannot be changed by temporaries from `t` on. -/
def Settled (t : Nat) : Operand → Prop
  | .temp n => n < t
  | .var name => ∀ n, name ≠ tempName n
  | _ => True

theorem readOperand_congr {t : Nat} {a : Operand} {σ τ : Store} (ha : Settled t a)
    (h : AgreeBelow t σ τ) : readOperand M τ a = readOperand M σ a := by
  cases a with
  | int n | float x | string s => rfl
  | var name => simp only [readOperand, h name fun n _ => ha n]
  | temp m =>
    have hm : ∀ n, t ≤ n → tempName m ≠ tempName n := fun n hn heq =>
      Nat.not_lt.2 hn (tempName_injective heq ▸ ha)
    simp only [readOperand, h _ hm]

/-- No variable of the tree is called like a temporary. -/
def AvoidsTemps (n : Node) : Prop := ∀ x ∈ n.names, ∀ t, x ≠ tempName t

theorem Computes.settled {e : Node} {t t' : Nat} {piece : List Instruction} {a : Operand}
    (h : Computes e t piece a t') (he : AvoidsTemps e) : Settled t' a := by
  cases h with
  | int | float | string => exact trivial
  | var => exact he _ (List.mem_singleton.2 rfl)
  | binary => exact Nat.lt_succ_self _

/-! ## Expressions -/

/-- What the machine does with the code of an expression that has the given result: it arrives
behind the code, where the operand has the result up to which fault it is, or it fails before. -/
inductive Delivers (M : Interpretation F) (code : List Instruction) (line behind t : Nat)
    (a : Operand) (σ : Store) (result : Except F Value) : Prop
  | arrives {τ : Store} :
      Leads (step M code) (.before line σ) (.before behind τ) → AgreeBelow t σ τ →
      (readOperand M τ a).toOption = result.toOption → Delivers M code line behind t a σ result
  | fails {f g : F} {τ : Store} :
      Leads (step M code) (.before line σ) (.done (.failed g) τ) → AgreeBelow t σ τ →
      result = .error f → Delivers M code line behind t a σ result

theorem toOption_bind {α β : Type} {x y : Except F α} {f g : α → Except F β}
    (hxy : x.toOption = y.toOption) (hfg : ∀ a, (f a).toOption = (g a).toOption) :
    (x >>= f).toOption = (y >>= g).toOption := by
  cases x <;> cases y <;> cases hxy
  · rfl
  · exact hfg _

theorem eq_ok_of_toOption {α : Type} {x : Except F α} {a : α}
    (h : x.toOption = (Except.ok a : Except F α).toOption) : x = .ok a := by
  cases x with
  | ok b =>
    cases h
    rfl
  | error f => cases h

theorem eq_error_of_toOption {α : Type} {x : Except F α} {f : F}
    (h : x.toOption = (Except.error f : Except F α).toOption) : ∃ g, x = .error g := by
  cases x with
  | ok b => cases h
  | error g => exact ⟨g, rfl⟩

/-- A binary operation fails if one of its operands does. -/
theorem eval_binary_of_error {σ : Store} {left right : Node} {op : Operator}
    {l : Option Location} {f : F} (h : eval M σ left = .error f ∨ eval M σ right = .error f) :
    ∃ g, eval M σ (.binary left op right l) = .error g := by
  rcases h with h | h
  · exact ⟨f, by simp only [eval, h]; rfl⟩
  · cases hl : eval M σ left with
    | ok v => exact ⟨f, by simp only [eval, hl, h]; rfl⟩
    | error g => exact ⟨g, by simp only [eval, hl]; rfl⟩

/-- **The code of an expression delivers its value.** -/
theorem Computes.delivers {e : Node} {t t' line : Nat} {piece : List Instruction} {a : Operand}
    {σ σ' : Store} (h : Computes e t piece a t') (he : AvoidsTemps e)
    (hcode : CodeAt code line piece) (hσ : AgreeBelow 0 σ σ') :
    Delivers M code line (line + piece.length) t a σ' (eval M σ e) := by
  induction h generalizing line σ' with
  | int | float | string => exact .arrives .refl (.refl _ _) rfl
  | @var name =>
    have hx : σ' name = σ name := hσ name fun n _ => he name (List.mem_singleton.2 rfl) n
    refine .arrives .refl (.refl _ _) ?_
    cases hv : σ name with
    | none => simp only [readOperand, eval, hx, hv]
    | some v => simp only [readOperand, eval, hx, hv]
  | @binary left right op l t t₁ t₂ leftCode rightCode a b cl cr ihl ihr =>
    have hleft : AvoidsTemps left := fun x hx => he x (List.mem_append_left _ hx)
    have hright : AvoidsTemps right := fun x hx => he x (List.mem_append_right _ hx)
    have hinstr : code[line + leftCode.length + rightCode.length]? = some (.binary t₂ a op b) := by
      have hlast := hcode.right.head
      rwa [List.length_append, ← Nat.add_assoc] at hlast
    have hbehind : line + (leftCode ++ rightCode ++ [Instruction.binary t₂ a op b]).length =
        line + leftCode.length + rightCode.length + 1 := by
      simp only [List.length_append, List.length_singleton]
      omega
    rw [hbehind]
    cases ihl hleft hcode.left.left hσ with
    | fails hrun₁ hτ₁ herr =>
      obtain ⟨g, hg⟩ := eval_binary_of_error (.inl herr)
      exact .fails hrun₁ hτ₁ hg
    | @arrives τ₁ hrun₁ hτ₁ hread₁ =>
      cases ihr hright hcode.left.right (hσ.trans (hτ₁.mono (Nat.zero_le _))) with
      | fails hrun₂ hτ₂ herr =>
        obtain ⟨g, hg⟩ := eval_binary_of_error (.inr herr)
        exact .fails (hrun₁.trans hrun₂) (hτ₁.trans (hτ₂.mono cl.le)) hg
      | @arrives τ₂ hrun₂ hτ₂ hread₂ =>
        -- The temporaries of the right operand leave the left one alone.
        rw [← readOperand_congr (cl.settled hleft) hτ₂] at hread₁
        have hagree : AgreeBelow t σ' τ₂ := hτ₁.trans (hτ₂.mono cl.le)
        have hresult : (operateOn M τ₂ a op b).toOption =
            (eval M σ (.binary left op right l)).toOption :=
          toOption_bind hread₁ fun v => toOption_bind hread₂ fun w => rfl
        have hstep := step_before (M := M) hinstr τ₂
        cases heval : eval M σ (.binary left op right l) with
        | ok v =>
          rw [heval] at hresult
          rw [perform, eq_ok_of_toOption hresult] at hstep
          refine .arrives (hrun₁.trans (hrun₂.trans (.single hstep)))
            (hagree.trans (.set_temp (Nat.le_trans cl.le cr.le) τ₂ v)) ?_
          simp only [readOperand, Store.set_self]
        | error f =>
          rw [heval] at hresult
          obtain ⟨g, hg⟩ := eq_error_of_toOption hresult
          rw [perform, hg] at hstep
          exact .fails (hrun₁.trans (hrun₂.trans (.single hstep))) hagree rfl

/-- An expression that has a value arrives with it. -/
theorem Delivers.ok {line behind t : Nat} {a : Operand} {σ : Store} {v : Value}
    (h : Delivers M code line behind t a σ (.ok v)) :
    ∃ τ, Leads (step M code) (.before line σ) (.before behind τ) ∧ AgreeBelow t σ τ ∧
      readOperand M τ a = .ok v := by
  cases h with
  | arrives hrun hτ hread => exact ⟨_, hrun, hτ, eq_ok_of_toOption hread⟩
  | fails _ _ herr => cases herr

/-- An expression that fails does so at the latest in an instruction that reads its operand. -/
theorem Delivers.error {line behind t : Nat} {a : Operand} {σ : Store} {f : F}
    (h : Delivers M code line behind t a σ (.error f))
    (hread : ∀ τ g, readOperand M τ a = .error g →
      step M code (.before behind τ) = .done (.failed g) τ) :
    ∃ g τ, Leads (step M code) (.before line σ) (.done (.failed g) τ) ∧ AgreeBelow t σ τ := by
  cases h with
  | arrives hrun hτ herr =>
    obtain ⟨g, hg⟩ := eq_error_of_toOption herr
    exact ⟨g, _, hrun.trans (.single (hread _ _ hg)), hτ⟩
  | fails hrun hτ _ => exact ⟨_, _, hrun, hτ⟩

end ThreeAddress
