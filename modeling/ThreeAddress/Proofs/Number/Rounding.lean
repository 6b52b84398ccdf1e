import Mathlib.Algebra.Order.Field.Power
import Mathlib.Algebra.Order.Field.Rat
import Mathlib.Tactic.FieldSimp
import Mathlib.Tactic.NormNum
import Mathlib.Tactic.Positivity
import ThreeAddress.Number.Shortest

/-!
# The shortest decimal rounds to its double

Decimals and doubles as rational numbers, and the comparisons between them as comparisons of these.

* `Decimal.value`, `Dyadic.value`: the numbers.
* `Dyadic.low`, `Dyadic.high`: the ends of the interval of the numbers that round to a double.
* `Dyadic.rounds_iff`: a decimal rounds to a double iff it is in that interval, where the ends count
  if the significand is even.
* `Dyadic.rounds_shortest`: the shortest decimal is one of these.
-/

namespace ThreeAddress.Number

/-! ## Values -/

/-- The number that a decimal denotes. -/
def Decimal.value (d : Decimal) : ℚ := d.digits * 10 ^ d.exponent

namespace Dyadic

/-- The number that a double denotes. -/
def value (x : Dyadic) : ℚ := x.significand * 2 ^ x.exponent

theorem zpow_eq_div (b : ℚ) (i : ℤ) : b ^ i = b ^ i.toNat / b ^ (-i).toNat := by
  rcases Int.le_total 0 i with h | h
  · obtain ⟨n, rfl⟩ := Int.eq_ofNat_of_zero_le h
    simp
  · obtain ⟨n, hn⟩ := Int.eq_ofNat_of_zero_le (Int.neg_nonneg.2 h)
    obtain rfl : i = -n := by omega
    simp

/-! ## Comparisons -/

section Comparison

variable {a n : Nat} {i j : ℤ}

/-- The products that are compared, as the numbers themselves. -/
theorem scaled_sides (a : Nat) (i : ℤ) (n : Nat) (j : ℤ) :
    ∃ c : ℚ, 0 < c ∧
      ((a * Nat.pow 10 i.toNat * Nat.pow 2 (-j).toNat : Nat) : ℚ) = a * 10 ^ i * c ∧
      ((n * Nat.pow 2 j.toNat * Nat.pow 10 (-i).toNat : Nat) : ℚ) = n * 2 ^ j * c := by
  refine ⟨2 ^ (-j).toNat * 10 ^ (-i).toNat, by positivity, ?_, ?_⟩
  · rw [zpow_eq_div 10 i]
    simp only [Nat.pow_eq, Nat.cast_mul, Nat.cast_pow, Nat.cast_ofNat]
    field_simp
  · rw [zpow_eq_div 2 j]
    simp only [Nat.pow_eq, Nat.cast_mul, Nat.cast_pow, Nat.cast_ofNat]
    field_simp

theorem compareScaled_lt :
    compareScaled a i n j = .lt ↔ (a : ℚ) * 10 ^ i < n * 2 ^ j := by
  obtain ⟨c, hc, hleft, hright⟩ := scaled_sides a i n j
  rw [compareScaled, compare_lt_iff_lt, ← Nat.cast_lt (α := ℚ), hleft, hright,
    mul_lt_mul_iff_of_pos_right hc]

theorem compareScaled_gt :
    compareScaled a i n j = .gt ↔ (n : ℚ) * 2 ^ j < a * 10 ^ i := by
  obtain ⟨c, hc, hleft, hright⟩ := scaled_sides a i n j
  rw [compareScaled, compare_gt_iff_gt, ← Nat.cast_lt (α := ℚ), hleft, hright,
    mul_lt_mul_iff_of_pos_right hc]

theorem compareScaled_eq :
    compareScaled a i n j = .eq ↔ (a : ℚ) * 10 ^ i = n * 2 ^ j := by
  obtain ⟨c, hc, hleft, hright⟩ := scaled_sides a i n j
  rw [compareScaled, compare_eq_iff_eq, ← Nat.cast_inj (R := ℚ), hleft, hright,
    mul_left_inj' hc.ne']

end Comparison

/-! ## Intervals -/

variable {x : Dyadic} {d : Decimal}

/-- The point halfway to the neighbour below. -/
def low (x : Dyadic) : ℚ :=
  (4 * x.significand - (if x.nearBelow then 1 else 2) : Nat) * 2 ^ (x.exponent - 2)

/-- The point halfway to the neighbour above. -/
def high (x : Dyadic) : ℚ := (4 * x.significand + 2 : Nat) * 2 ^ (x.exponent - 2)

/-- **A decimal rounds to a double iff it is in the interval of the double.** -/
theorem rounds_iff :
    x.rounds d = true ↔
      (x.low < d.value ∨ x.significand % 2 = 0 ∧ x.low = d.value) ∧
        (d.value < x.high ∨ x.significand % 2 = 0 ∧ d.value = x.high) := by
  simp only [rounds, Bool.and_eq_true, Bool.or_eq_true, beq_iff_eq, compareScaled_lt,
    compareScaled_gt, compareScaled_eq]
  rw [eq_comm (a := (d.digits : ℚ) * 10 ^ d.exponent) (b := ((4 * x.significand -
    (if x.nearBelow = true then 1 else 2) : Nat) : ℚ) * 2 ^ (x.exponent - 2))]
  rfl

theorem value_eq (x : Dyadic) : x.value = (4 * x.significand : Nat) * 2 ^ (x.exponent - 2) := by
  rw [value, zpow_sub₀ (by norm_num), Nat.cast_mul, Nat.cast_ofNat]
  field_simp
  norm_num

theorem low_lt_value (h : 0 < x.significand) : x.low < x.value := by
  rw [value_eq, low, mul_lt_mul_iff_of_pos_right (by positivity), Nat.cast_lt]
  split <;> omega

theorem value_lt_high (x : Dyadic) : x.value < x.high := by
  rw [value_eq, high, mul_lt_mul_iff_of_pos_right (by positivity), Nat.cast_lt]
  omega

/-! ## The shortest decimal -/

theorem expansion_value (x : Dyadic) : x.expansion.value = x.value := by
  unfold expansion
  split
  · next h =>
    obtain ⟨n, hn⟩ := Int.eq_ofNat_of_zero_le h
    simp [Decimal.value, value, hn]
  · next h =>
    obtain ⟨n, hn⟩ := Int.eq_ofNat_of_zero_le (Int.le_of_lt (Int.neg_pos.2 (Int.not_le.1 h)))
    obtain hexponent : x.exponent = -n := by omega
    have hpow : (10 : ℚ) ^ n = 5 ^ n * 2 ^ n := by rw [← mul_pow]; norm_num
    simp only [Decimal.value, value, hexponent, Int.neg_neg, Int.toNat_natCast, zpow_neg,
      zpow_natCast, hpow, Nat.cast_mul, Nat.pow_eq, Nat.cast_pow]
    push_cast
    field_simp

theorem rounds_expansion (h : 0 < x.significand) : x.rounds x.expansion = true := by
  rw [rounds_iff, expansion_value]
  exact ⟨.inl (low_lt_value h), .inl (value_lt_high x)⟩

theorem rounds_of_onGrid? {exponent : ℤ} (h : x.onGrid? exponent = some d) :
    x.rounds d = true := by
  unfold onGrid? at h
  dsimp only at h
  split at h
  · next hbelow habove =>
    split at h
    · cases h
      exact hbelow
    · cases h
      exact habove
    · cases h
      split
      · exact hbelow
      · exact habove
  · next hbelow _ =>
    cases h
    exact hbelow
  · next _ habove =>
    cases h
    exact habove
  · cases h

/-- **The shortest decimal rounds to its double.** -/
theorem rounds_shortest (h : 0 < x.significand) : x.rounds x.shortest = true := by
  unfold shortest
  dsimp only
  cases hsearch : (List.range 17).findSome? fun n : Nat => x.onGrid? (x.leadingExponent - n) with
  | none => exact rounds_expansion h
  | some d =>
    obtain ⟨n, -, hn⟩ := List.exists_of_findSome?_eq_some hsearch
    exact rounds_of_onGrid? hn

end Dyadic

end ThreeAddress.Number
