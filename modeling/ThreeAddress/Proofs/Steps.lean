/-!
# What a step may do

The phases are steps that carry a state and may fail. `Meets` says of one step from one state what
its result, its failure and the state after it are like, so that a phase is treated one operation
at a time.
-/

namespace ThreeAddress

variable {ε σ α β : Type}

theorem bind_of_ok {x : EStateM ε σ α} {f : α → EStateM ε σ β} {s s' : σ} {a : α}
    (h : x s = .ok a s') : (x >>= f) s = f a s' := by
  show EStateM.bind x f s = _
  rw [EStateM.bind, h]

theorem bind_of_error {x : EStateM ε σ α} {f : α → EStateM ε σ β} {s s' : σ} {e : ε}
    (h : x s = .error e s') : (x >>= f) s = .error e s' := by
  show EStateM.bind x f s = _
  rw [EStateM.bind, h]

theorem bind_eq_ok_iff {x : EStateM ε σ α} {f : α → EStateM ε σ β} {s t : σ} {b : β} :
    (x >>= f) s = .ok b t ↔ ∃ a s', x s = .ok a s' ∧ f a s' = .ok b t := by
  show EStateM.bind x f s = _ ↔ _
  unfold EStateM.bind
  cases x s with
  | ok a s' =>
    simp only [EStateM.Result.ok.injEq]
    constructor
    · exact fun h => ⟨a, s', ⟨rfl, rfl⟩, h⟩
    · rintro ⟨_, _, ⟨rfl, rfl⟩, h⟩
      exact h
  | error e s' => simp

theorem mapError_eq_ok_iff {ε' : Type} {r : Except ε α} {f : ε → ε'} {a : α} :
    r.mapError f = .ok a ↔ r = .ok a := by
  cases r with
  | ok b =>
    constructor <;> intro h
    · exact congrArg _ (Except.ok.inj h)
    · exact congrArg _ (Except.ok.inj h)
  | error e => constructor <;> intro h <;> cases h

theorem eq_error_of_map {r : Except ε α} {e : ε} (h : r.map (fun _ => ()) = .error e) :
    r = .error e := by
  cases r with
  | ok a => cases h
  | error e' => exact congrArg _ (Except.error.inj h)

/-- From the given state the step succeeds with a good result and state, or it fails with a bad
failure and state. -/
def Meets (x : EStateM ε σ α) (s : σ) (good : α → σ → Prop) (bad : ε → σ → Prop) : Prop :=
  match x s with
  | .ok a s' => good a s'
  | .error e s' => bad e s'

namespace Meets

variable {x : EStateM ε σ α} {f : α → EStateM ε σ β} {s s' : σ} {a : α} {e : ε}
  {good good' : α → σ → Prop} {bad bad' : ε → σ → Prop} {goodNext : β → σ → Prop}

theorem pure (h : good a s) : Meets (Pure.pure a : EStateM ε σ α) s good bad := h

theorem throw (h : bad e s) : Meets (MonadExcept.throw e : EStateM ε σ α) s good bad := h

theorem ok (hx : x s = .ok a s') (h : good a s') : Meets x s good bad := by
  unfold Meets
  rw [hx]
  exact h

theorem error (hx : x s = .error e s') (h : bad e s') : Meets x s good bad := by
  unfold Meets
  rw [hx]
  exact h

theorem bind (hx : Meets x s (fun a s' => Meets (f a) s' goodNext bad) bad) :
    Meets (x >>= f) s goodNext bad := by
  show match EStateM.bind x f s with
    | .ok b s' => goodNext b s'
    | .error e s' => bad e s'
  unfold Meets at hx
  unfold EStateM.bind
  cases h : x s with
  | ok a s' =>
    rw [h] at hx
    exact hx
  | error e s' =>
    rw [h] at hx
    exact hx

theorem mono (h : Meets x s good bad) (hgood : ∀ a s', good a s' → good' a s')
    (hbad : ∀ e s', bad e s' → bad' e s') : Meets x s good' bad' := by
  unfold Meets at h ⊢
  cases hx : x s with
  | ok a s' =>
    rw [hx] at h
    exact hgood a s' h
  | error e s' =>
    rw [hx] at h
    exact hbad e s' h

/-- One step and then the next, which starts where the first has left off. -/
theorem andThen (hx : Meets x s good bad)
    (hf : ∀ a s', good a s' → Meets (f a) s' goodNext bad') (hbad : ∀ e s', bad e s' → bad' e s') :
    Meets (x >>= f) s goodNext bad' :=
  bind (hx.mono hf hbad)

theorem exists_ok (h : Meets x s good fun _ _ => False) : ∃ a s', x s = .ok a s' ∧ good a s' := by
  unfold Meets at h
  cases hx : x s with
  | ok a s' =>
    rw [hx] at h
    exact ⟨a, s', rfl, h⟩
  | error e s' =>
    rw [hx] at h
    exact h.elim

theorem of_ok (h : Meets x s good bad) (hx : x s = .ok a s') : good a s' := by
  unfold Meets at h
  rw [hx] at h
  exact h

theorem of_error (h : Meets x s good bad) (hx : x s = .error e s') : bad e s' := by
  unfold Meets at h
  rw [hx] at h
  exact h

end Meets

end ThreeAddress
