import ThreeAddress.Proofs.Steps
import ThreeAddress.Stack.Basic

/-!
# Work that settles

Work on a stack that has a limit either goes as it does without one, or ends where the stack has no
room left, and the room alone decides which.

* `Settles`: from a state there is a room that is needed. With it the work goes as it does without a
  limit, and with less it ends at the limit.
* `Settles.enter`, `Settles.bind`: calls add to what is needed, and of two steps one after the other
  the one that needs more counts.
-/

namespace ThreeAddress

variable {ε ε' σ α β : Type} {full : ε → Prop} {bound : Nat} {s : σ}
  {x : Nat → EStateM ε σ α} {y : EStateM ε σ α} {f : Nat → α → EStateM ε σ β}
  {g : α → EStateM ε σ β}

namespace Stack

variable {m : Type → Type} {γ : Type} {out : m γ} {calls room : Nat} {next : Nat → m γ}

theorem enter_of_le (h : calls ≤ room) : enter out calls room next = next (room - calls) :=
  if_pos h

theorem enter_of_lt (h : room < calls) : enter out calls room next = out :=
  if_neg (Nat.not_le.2 h)

end Stack

/-- From the state `s` the work `x` in a room settles to the work `y`: some room, of `bound` at
most, is needed for it to go as `y` does, and in less room it fails with a failure that tells that
the stack is `full`. -/
def Settles (full : ε → Prop) (bound : Nat) (x : Nat → EStateM ε σ α) (y : EStateM ε σ α) (s : σ) :
    Prop :=
  ∃ need ≤ bound, ∀ room, (need ≤ room → x room s = y s) ∧
    (room < need → ∃ e s', x room s = .error e s' ∧ full e)

namespace Settles

/-- Work that makes no calls needs no room. -/
theorem const (y : EStateM ε σ α) (s : σ) : Settles full bound (fun _ => y) y s :=
  ⟨0, Nat.zero_le _, fun _ => ⟨fun _ => rfl, fun h => absurd h (Nat.not_lt_zero _)⟩⟩

theorem mono {k : Nat} (h : Settles full k x y s) (hk : k ≤ bound) : Settles full bound x y s := by
  obtain ⟨need, hneed, hroom⟩ := h
  exact ⟨need, Nat.le_trans hneed hk, hroom⟩

/-- Only the runs from the one state matter. -/
theorem congr {x' : Nat → EStateM ε σ α} {y' : EStateM ε σ α} (h : Settles full bound x y s)
    (hx : ∀ room, x' room s = x room s) (hy : y' s = y s) : Settles full bound x' y' s := by
  obtain ⟨need, hneed, hroom⟩ := h
  refine ⟨need, hneed, fun room => ?_⟩
  rw [hx, hy]
  exact hroom room

/-- Calls that find no room end the work. -/
theorem enter {out : EStateM ε σ α} {calls : Nat} (hout : ∃ e s', out s = .error e s' ∧ full e)
    (h : Settles full bound x y s) :
    Settles full (bound + calls) (fun room => Stack.enter out calls room x) y s := by
  obtain ⟨need, hneed, hroom⟩ := h
  refine ⟨need + calls, Nat.add_le_add_right hneed _, fun room => ⟨fun hle => ?_, fun hlt => ?_⟩⟩
  · dsimp only
    rw [Stack.enter_of_le (by omega)]
    exact (hroom _).1 (by omega)
  · dsimp only
    by_cases hcalls : calls ≤ room
    · rw [Stack.enter_of_le hcalls]
      exact (hroom _).2 (by omega)
    · rwa [Stack.enter_of_lt (Nat.lt_of_not_le hcalls)]

/-- The second step matters only where the first one succeeds. -/
theorem bind (hx : Settles full bound x y s)
    (hf : ∀ a s', y s = .ok a s' → Settles full bound (fun room => f room a) (g a) s') :
    Settles full bound (fun room => x room >>= f room) (y >>= g) s := by
  obtain ⟨need, hneed, hroom⟩ := hx
  -- In too little room for the first step the work ends there, whatever the second step needs.
  have hshort : ∀ room < need, ∃ e s', (x room >>= f room) s = .error e s' ∧ full e := by
    intro room hlt
    obtain ⟨e, s', he, hfull⟩ := (hroom room).2 hlt
    exact ⟨e, s', bind_of_error he, hfull⟩
  cases hy : y s with
  | error e s' =>
    refine ⟨need, hneed, fun room => ⟨fun hle => ?_, hshort room⟩⟩
    exact (bind_of_error (((hroom room).1 hle).trans hy)).trans (bind_of_error hy).symm
  | ok a s' =>
    obtain ⟨need', hneed', hroom'⟩ := hf a s' hy
    have hfirst : ∀ room, need ≤ room → (x room >>= f room) s = f room a s' :=
      fun room hle => bind_of_ok (((hroom room).1 hle).trans hy)
    refine ⟨max need need', Nat.max_le.2 ⟨hneed, hneed'⟩, fun room => ?_⟩
    refine ⟨fun hle => ?_, fun hlt => ?_⟩
    · dsimp only
      rw [bind_of_ok hy, hfirst room (by omega)]
      exact (hroom' room).1 (by omega)
    · by_cases hroom_lt : room < need
      · exact hshort room hroom_lt
      · dsimp only
        rw [hfirst room (by omega)]
        exact (hroom' room).2 (by omega)

/-- What settles can be made part of larger work, if the larger work fails as it does. -/
theorem lift {τ γ : Type} {full' : ε' → Prop} {t : τ} {z : Nat → EStateM ε' τ γ}
    {w : EStateM ε' τ γ} (h : Settles full bound x y s)
    (heq : ∀ room, x room s = y s → z room t = w t)
    (hfull : ∀ room e s', x room s = .error e s' → full e →
      ∃ e' t', z room t = .error e' t' ∧ full' e') :
    Settles full' bound z w t := by
  obtain ⟨need, hneed, hroom⟩ := h
  refine ⟨need, hneed, fun room => ⟨fun hle => heq room ((hroom room).1 hle), fun hlt => ?_⟩⟩
  obtain ⟨e, s', he, he_full⟩ := (hroom room).2 hlt
  exact hfull room e s' he he_full

end Settles

end ThreeAddress
