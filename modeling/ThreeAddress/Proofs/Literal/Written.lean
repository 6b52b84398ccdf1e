import ThreeAddress.Literal

/-!
# Integers with a written form

The limit on the digits of an integer holds in both directions: what is read from at most
`digitLimit` digits is an integer that can be written again.
-/

namespace ThreeAddress.Literal

theorem hasText_iff {n : Int} : hasText n = true ↔ n.natAbs < Nat.pow 10 digitLimit := by
  unfold hasText
  rw [decide_eq_true_iff]

/-- Digits behind a number move it up by as many places. -/
theorem foldl_digits_lt {ds : List Nat} (h : ∀ d ∈ ds, d < 10) (n : Nat) :
    ds.foldl (fun n d => 10 * n + d) n < (n + 1) * Nat.pow 10 ds.length := by
  induction ds generalizing n with
  | nil => simp
  | cons d ds ih =>
    obtain ⟨hd, hds⟩ := List.forall_mem_cons.1 h
    rw [List.foldl_cons, List.length_cons]
    calc
      ds.foldl (fun n d => 10 * n + d) (10 * n + d)
        < (10 * n + d + 1) * Nat.pow 10 ds.length := ih hds _
      _ ≤ (n + 1) * 10 * Nat.pow 10 ds.length := Nat.mul_le_mul_right _ (by omega)
      _ = (n + 1) * Nat.pow 10 (ds.length + 1) := by
        rw [Nat.mul_assoc, Nat.mul_comm 10]
        rfl

theorem value_lt {ds : List Nat} (h : ∀ d ∈ ds, d < 10) : value ds < Nat.pow 10 ds.length := by
  have hlt := foldl_digits_lt h 0
  rwa [Nat.zero_add, Nat.one_mul] at hlt

/-- **What is read from digits can be written.** -/
theorem hasText_value {ds : List Nat} (h : ∀ d ∈ ds, d < 10) (hlength : ds.length ≤ digitLimit) :
    hasText (value ds : Int) = true := by
  rw [hasText_iff, Int.natAbs_natCast]
  generalize digitLimit = limit at hlength ⊢
  exact Nat.lt_of_lt_of_le (value_lt h) (Nat.pow_le_pow_right (by decide) hlength)

end ThreeAddress.Literal
