import ThreeAddress.Proofs.Execution.Basic

/-!
# Nodes that do the same

`Equivalent` nodes have the same value and the same runs in every store. Equivalent parts can be
put in each other's place; one lemma for each kind of statement says so.
-/

namespace ThreeAddress

variable {F : Type} {M : Interpretation F}

/-! ## One direction -/

/-- The first node has the value of the second, and its runs are runs of the second. -/
structure Refines (M : Interpretation F) (n n' : Node) : Prop where
  value : ∀ σ, eval M σ n = eval M σ n'
  runs : ∀ {σ o τ}, Exec M n σ o τ → Exec M n' σ o τ

theorem Refines.zero {c c' : Node} (h : Refines M c c') (σ : Store) :
    evalZero M σ c = evalZero M σ c' := by
  rw [evalZero, evalZero, h.value]

/-- Of what is no command, only the value counts. -/
theorem Refines.of_value {e e' : Node} (he : e.isCommand = false) (he' : e'.isCommand = false)
    (h : ∀ σ, eval M σ e = eval M σ e') : Refines M e e' where
  value := h
  runs := by
    intro σ o τ hrun
    cases hrun with
    | value _ hv => exact .value he' (h σ ▸ hv)
    | value_fails _ hv => exact .value_fails he' (h σ ▸ hv)
    | _ => simp [Node.isCommand] at he

theorem Refines.ifThen {c c' t t' : Node} {l : Option Location} (hc : Refines M c c')
    (ht : Refines M t t') : Refines M (.ifThen c t l) (.ifThen c' t' l) where
  value _ := rfl
  runs := by
    intro σ o τ hrun
    have hzero := hc.zero σ
    cases hrun with
    | ifThen_zero h => exact .ifThen_zero (hzero ▸ h)
    | ifThen_nonzero h hs => exact .ifThen_nonzero (hzero ▸ h) (ht.runs hs)
    | ifThen_fails h => exact .ifThen_fails (hzero ▸ h)
    | value he _ | value_fails he _ => simp [Node.isCommand] at he

theorem Refines.ifElse {c c' t t' e e' : Node} {l : Option Location} (hc : Refines M c c')
    (ht : Refines M t t') (he : Refines M e e') :
    Refines M (.ifElse c t e l) (.ifElse c' t' e' l) where
  value _ := rfl
  runs := by
    intro σ o τ hrun
    have hzero := hc.zero σ
    cases hrun with
    | ifElse_zero h hs => exact .ifElse_zero (hzero ▸ h) (he.runs hs)
    | ifElse_nonzero h hs => exact .ifElse_nonzero (hzero ▸ h) (ht.runs hs)
    | ifElse_fails h => exact .ifElse_fails (hzero ▸ h)
    | value he _ | value_fails he _ => simp [Node.isCommand] at he

theorem Refines.whileLoop {c c' b b' : Node} {l : Option Location} (hc : Refines M c c')
    (hb : Refines M b b') : Refines M (.whileLoop c b l) (.whileLoop c' b' l) where
  value _ := rfl
  runs := by
    intro σ o τ hrun
    generalize hloop : Node.whileLoop c b l = loop at hrun
    induction hrun with
    | while_zero h =>
      cases hloop
      exact .while_zero (hc.zero _ ▸ h)
    | while_again h hs _ _ ih =>
      cases hloop
      exact .while_again (hc.zero _ ▸ h) (hb.runs hs) (ih rfl)
    | while_leave h hs ho _ =>
      cases hloop
      exact .while_leave (hc.zero _ ▸ h) (hb.runs hs) ho
    | while_fails h =>
      cases hloop
      exact .while_fails (hc.zero _ ▸ h)
    | value he _ | value_fails he _ =>
      subst hloop
      simp [Node.isCommand] at he
    | _ => cases hloop

theorem Refines.block_cons {s s' : Node} {ss ss' : List Node} {l : Option Location}
    (hs : Refines M s s') (hss : Refines M (.block ss l) (.block ss' l)) :
    Refines M (.block (s :: ss) l) (.block (s' :: ss') l) where
  value _ := rfl
  runs := by
    intro σ o τ hrun
    rcases exec_block_cons_iff.1 hrun with ⟨σ₁, h₁, h₂⟩ | ⟨h₁, ho⟩
    · exact .block_cons (hs.runs h₁) (hss.runs h₂)
    · exact .block_leave (hs.runs h₁) ho

theorem Refines.forLoop {i c u b b' : Node} {l : Option Location}
    (hrounds : Refines M (.block [i, .rounds c u b l] l) (.block [i, .rounds c u b' l] l)) :
    Refines M (.forLoop i c u b l) (.forLoop i c u b' l) where
  value _ := rfl
  runs hrun := exec_forLoop_iff.2 (hrounds.runs (exec_forLoop_iff.1 hrun))

theorem Refines.retValue {e e' : Node} {l : Option Location} (he : Refines M e e') :
    Refines M (.retValue e l) (.retValue e' l) where
  value _ := rfl
  runs := by
    intro σ o τ hrun
    cases hrun with
    | retValue h => exact .retValue (he.value σ ▸ h)
    | retValue_fails h => exact .retValue_fails (he.value σ ▸ h)
    | value he _ | value_fails he _ => simp [Node.isCommand] at he

/-! ## Both directions -/

/-- The nodes have the same value and the same runs. -/
def Equivalent (M : Interpretation F) (n n' : Node) : Prop := Refines M n n' ∧ Refines M n' n

namespace Equivalent

theorem refl (n : Node) : Equivalent M n n := ⟨⟨fun _ => rfl, id⟩, ⟨fun _ => rfl, id⟩⟩

theorem of_value {e e' : Node} (he : e.isCommand = false) (he' : e'.isCommand = false)
    (h : ∀ σ, eval M σ e = eval M σ e') : Equivalent M e e' :=
  ⟨.of_value he he' h, .of_value he' he fun σ => (h σ).symm⟩

theorem value {n n' : Node} (h : Equivalent M n n') (σ : Store) : eval M σ n = eval M σ n' :=
  h.1.value σ

theorem exec_iff {n n' : Node} (h : Equivalent M n n') {σ τ : Store} {o : Outcome F} :
    Exec M n σ o τ ↔ Exec M n' σ o τ :=
  ⟨h.1.runs, h.2.runs⟩

variable {c c' t t' e e' b b' : Node} {l : Option Location}

theorem ifThen (hc : Equivalent M c c') (ht : Equivalent M t t') :
    Equivalent M (.ifThen c t l) (.ifThen c' t' l) :=
  ⟨hc.1.ifThen ht.1, hc.2.ifThen ht.2⟩

theorem ifElse (hc : Equivalent M c c') (ht : Equivalent M t t') (he : Equivalent M e e') :
    Equivalent M (.ifElse c t e l) (.ifElse c' t' e' l) :=
  ⟨hc.1.ifElse ht.1 he.1, hc.2.ifElse ht.2 he.2⟩

theorem whileLoop (hc : Equivalent M c c') (hb : Equivalent M b b') :
    Equivalent M (.whileLoop c b l) (.whileLoop c' b' l) :=
  ⟨hc.1.whileLoop hb.1, hc.2.whileLoop hb.2⟩

theorem block_cons {s s' : Node} {ss ss' : List Node} (hs : Equivalent M s s')
    (hss : Equivalent M (.block ss l) (.block ss' l)) :
    Equivalent M (.block (s :: ss) l) (.block (s' :: ss') l) :=
  ⟨hs.1.block_cons hss.1, hs.2.block_cons hss.2⟩

/-- The body of a counting loop is a part of its rounds. -/
theorem forLoop {i u : Node} (hb : Equivalent M b b') :
    Equivalent M (.forLoop i c u b l) (.forLoop i c u b' l) := by
  have hround : Equivalent M (.block [b, u] l) (.block [b', u] l) := hb.block_cons (refl _)
  have hrounds : Equivalent M (.rounds c u b l) (.rounds c u b' l) := (refl c).whileLoop hround
  have hblock : Equivalent M (.block [i, .rounds c u b l] l) (.block [i, .rounds c u b' l] l) :=
    (refl i).block_cons (hrounds.block_cons (refl _))
  exact ⟨hblock.1.forLoop, hblock.2.forLoop⟩

theorem retValue (he : Equivalent M e e') : Equivalent M (.retValue e l) (.retValue e' l) :=
  ⟨he.1.retValue, he.2.retValue⟩

end Equivalent

end ThreeAddress
