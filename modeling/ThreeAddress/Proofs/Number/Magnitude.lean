import Mathlib.Order.Monotone.Basic
import Mathlib.Tactic.Linarith
import Mathlib.Tactic.Ring
import ThreeAddress.Proofs.Number.Rounding

/-!
# Doubles do not share decimals

The doubles without sign are numbered by their bits, in the order of their size. The point halfway
between two neighbours is the upper end of the one interval and the lower end of the next; it counts
for one of them only, since just one of two neighbours has an even number.

* `Dyadic.ofMagnitude`: the double with a number.
* `Dyadic.units`: its size, in units of `2 ^ (-1074)`.
* `Dyadic.low_eq`, `Dyadic.high_eq`: the ends of its interval.
* `Dyadic.rounds_unique`: a decimal rounds to one double at most.
-/

namespace ThreeAddress.Number.Dyadic

/-! ## Numbered doubles -/

/-- The double with the given scale and fraction. -/
def ofFields (scale fraction : Nat) : Dyadic :=
  if scale = 0 then ⟨fraction, -1074, false⟩
  else ⟨2 ^ 52 + fraction, scale - 1075, fraction == 0 && 1 < scale⟩

/-- The double whose bits, without the sign, are the given number. -/
def ofMagnitude (m : Nat) : Dyadic := ofFields (m / 2 ^ 52) (m % 2 ^ 52)

theorem ofBits_eq (bits : UInt64) : ofBits bits = ofMagnitude (bits.toNat % 2 ^ 63) := by
  have hscale : ((bits >>> 52) &&& 0x7FF).toNat = bits.toNat % 2 ^ 63 / 2 ^ 52 := by
    rw [UInt64.toNat_and, UInt64.toNat_shiftRight]
    show bits.toNat >>> 52 &&& (2 ^ 11 - 1) = _
    rw [Nat.and_two_pow_sub_one_eq_mod, Nat.shiftRight_eq_div_pow]
    omega
  have hfraction : (bits &&& 0xFFFFFFFFFFFFF).toNat = bits.toNat % 2 ^ 63 % 2 ^ 52 := by
    rw [UInt64.toNat_and]
    show bits.toNat &&& (2 ^ 52 - 1) = _
    rw [Nat.and_two_pow_sub_one_eq_mod]
    omega
  unfold ofBits ofMagnitude ofFields
  rw [hscale, hfraction]
  norm_num

theorem significand_pos {m : Nat} (h : 0 < m) : 0 < (ofMagnitude m).significand := by
  unfold ofMagnitude ofFields
  split
  · show 0 < m % 2 ^ 52
    omega
  · show 0 < 2 ^ 52 + m % 2 ^ 52
    omega

theorem significand_mod (m : Nat) : (ofMagnitude m).significand % 2 = m % 2 := by
  unfold ofMagnitude ofFields
  split
  · show m % 2 ^ 52 % 2 = m % 2
    omega
  · show (2 ^ 52 + m % 2 ^ 52) % 2 = m % 2
    omega

/-! ## Sizes -/

/-- The size of the double with the given scale and fraction. -/
def unitsOf (scale fraction : Nat) : Nat :=
  if scale = 0 then fraction else (2 ^ 52 + fraction) * 2 ^ (scale - 1)

/-- The size of the double with the given number. -/
def units (m : Nat) : Nat := unitsOf (m / 2 ^ 52) (m % 2 ^ 52)

/-- **The distance to the neighbour above** depends on the scale only. -/
theorem units_succ (m : Nat) : units (m + 1) = units m + 2 ^ (m / 2 ^ 52 - 1) := by
  unfold units
  by_cases hcarry : m % 2 ^ 52 = 2 ^ 52 - 1
  · -- The next scale begins.
    rw [show (m + 1) / 2 ^ 52 = m / 2 ^ 52 + 1 by omega, show (m + 1) % 2 ^ 52 = 0 by omega, hcarry]
    cases m / 2 ^ 52 with
    | zero => rfl
    | succ s =>
      simp only [unitsOf, Nat.succ_ne_zero, if_false, Nat.add_sub_cancel, pow_succ 2 s]
      ring
  · rw [show (m + 1) / 2 ^ 52 = m / 2 ^ 52 by omega,
      show (m + 1) % 2 ^ 52 = m % 2 ^ 52 + 1 by omega]
    cases m / 2 ^ 52 with
    | zero => rfl
    | succ s =>
      simp only [unitsOf, Nat.succ_ne_zero, if_false]
      ring

theorem units_strictMono : StrictMono units :=
  strictMono_nat_of_lt_succ fun m => by
    rw [units_succ]
    exact Nat.lt_add_of_pos_right (Nat.two_pow_pos _)

/-! ## Intervals -/

/-- Half a unit. -/
def halfUnit : ℚ := 2 ^ (-1075 : ℤ)

theorem halfUnit_pos : 0 < halfUnit := zpow_pos (by norm_num) _

/-- A quarter of the least distance. -/
theorem least_quarter : (2 : ℚ) ^ (-1074 - 2 : ℤ) = halfUnit / 2 := by
  rw [halfUnit, show (-1074 - 2 : ℤ) = -1075 - 1 by norm_num, zpow_sub₀ (by norm_num), zpow_one]

/-- A quarter of the distance in a greater scale. -/
theorem scale_quarter (s : Nat) :
    (2 : ℚ) ^ (((s + 1 : Nat) : ℤ) - 1075 - 2) = 2 ^ s * halfUnit / 2 := by
  rw [halfUnit, show ((s + 1 : Nat) : ℤ) - 1075 - 2 = s + -1075 - 1 by push_cast; ring,
    zpow_sub₀ (by norm_num), zpow_add₀ (by norm_num), zpow_natCast, zpow_one]

theorem high_ofFields (scale fraction : Nat) :
    (ofFields scale fraction).high =
      (2 * unitsOf scale fraction + 2 ^ (scale - 1) : Nat) * halfUnit := by
  unfold high ofFields unitsOf
  cases scale with
  | zero =>
    simp only [if_true, least_quarter]
    push_cast
    ring
  | succ s =>
    simp only [Nat.succ_ne_zero, if_false, scale_quarter, Nat.add_sub_cancel]
    push_cast
    ring

/-- The neighbour below is in the scale below if there is no fraction. -/
theorem low_ofFields {scale fraction : Nat} (h : 0 < scale ∨ 0 < fraction) :
    (ofFields scale fraction).low =
      (2 * unitsOf scale fraction - 2 ^ ((if fraction = 0 then scale - 1 else scale) - 1) : ℚ) *
        halfUnit := by
  unfold low ofFields unitsOf
  match scale, fraction with
  | 0, 0 => omega
  | 0, f + 1 =>
    simp only [if_true, least_quarter, Bool.false_eq_true, if_false, Nat.succ_ne_zero]
    rw [show 4 * (f + 1) - 2 = 4 * f + 2 by omega]
    push_cast
    ring
  | 1, 0 =>
    simp only [Nat.succ_ne_zero, if_false, scale_quarter 0]
    norm_num
    ring
  | s + 2, 0 =>
    simp only [Nat.succ_ne_zero, if_false, scale_quarter (s + 1), beq_self_eq_true, Bool.true_and,
      decide_eq_true (show 1 < s + 1 + 1 by omega), if_true]
    norm_num
    ring
  | s + 1, f + 1 =>
    simp only [Nat.succ_ne_zero, if_false, scale_quarter s, Nat.add_sub_cancel, Bool.false_and,
      beq_eq_false_iff_ne.2 (Nat.succ_ne_zero f), Bool.false_eq_true]
    rw [show 4 * (2 ^ 52 + (f + 1)) - 2 = 4 * (2 ^ 52 + f) + 2 by omega]
    push_cast
    ring

/-- **The upper end is halfway to the neighbour above.** -/
theorem high_eq (m : Nat) :
    (ofMagnitude m).high = (units m + units (m + 1) : Nat) * halfUnit := by
  rw [ofMagnitude, high_ofFields, units_succ, ← Nat.add_assoc, ← Nat.two_mul]
  rfl

/-- **The lower end is halfway to the neighbour below.** -/
theorem low_eq (m : Nat) :
    (ofMagnitude (m + 1)).low = (units m + units (m + 1) : Nat) * halfUnit := by
  have hpositive : 0 < (m + 1) / 2 ^ 52 ∨ 0 < (m + 1) % 2 ^ 52 := by omega
  have hbelow : (if (m + 1) % 2 ^ 52 = 0 then (m + 1) / 2 ^ 52 - 1 else (m + 1) / 2 ^ 52) =
      m / 2 ^ 52 := by
    split <;> omega
  have hunits : (units (m + 1) : ℚ) = units m + 2 ^ (m / 2 ^ 52 - 1) := by
    rw [units_succ]
    push_cast
    rfl
  rw [ofMagnitude, low_ofFields hpositive, hbelow]
  show (2 * (units (m + 1) : ℚ) - 2 ^ (m / 2 ^ 52 - 1)) * halfUnit = _
  rw [Nat.cast_add, hunits]
  ring

/-- **A decimal rounds to one double at most.** -/
theorem rounds_unique {m n : Nat} {d e : Decimal} (hm : (ofMagnitude (m + 1)).rounds d = true)
    (hn : (ofMagnitude (n + 1)).rounds e = true) (hvalue : d.value = e.value) : m = n := by
  wlog hle : m ≤ n generalizing m n d e
  · exact (this hn hm hvalue.symm (Nat.le_of_not_le hle)).symm
  obtain ⟨-, habove⟩ := rounds_iff.1 hm
  obtain ⟨hbelow, -⟩ := rounds_iff.1 hn
  rw [high_eq, significand_mod, hvalue] at habove
  rw [low_eq, significand_mod] at hbelow
  -- The upper end of the one interval is not above the lower end of the other.
  by_contra hne
  have hlt : m + 1 ≤ n := by omega
  have hends : units (m + 1) + units (m + 1 + 1) ≤ units n + units (n + 1) :=
    Nat.add_le_add (units_strictMono.monotone hlt) (units_strictMono.monotone (by omega))
  have hcast : ((units (m + 1) + units (m + 1 + 1) : Nat) : ℚ) * halfUnit ≤
      (units n + units (n + 1) : Nat) * halfUnit :=
    mul_le_mul_of_nonneg_right (Nat.cast_le.2 hends) halfUnit_pos.le
  rcases habove with habove | ⟨hevenBelow, habove⟩
  · rcases hbelow with hbelow | ⟨-, hbelow⟩ <;> linarith
  · rcases hbelow with hbelow | ⟨hevenAbove, hbelow⟩
    · linarith
    · -- The ends meet, so the two are neighbours, and one of them has an odd number.
      have hmeet : units (m + 1) + units (m + 1 + 1) = units n + units (n + 1) := by
        have heq := mul_right_cancel₀ halfUnit_pos.ne' (habove.symm.trans hbelow.symm)
        exact_mod_cast heq
      have hnext : m + 1 = n := by
        by_contra hapart
        have hfirst := units_strictMono (show m + 1 < n by omega)
        have hsecond := units_strictMono (show m + 1 + 1 < n + 1 by omega)
        omega
      omega

end ThreeAddress.Number.Dyadic
