import ThreeAddress.Proofs.Number.Text

/-!
# Comparing floats

A float is equal to itself unless it is no number, and a decimal is read as a number: one that is
too large for a float becomes infinite, and an infinity is equal to itself.

* `beq_self_iff`: which floats are equal to themselves.
* `Literal.isNaN_nearest`: a decimal is read as a number.

The only products and quotients of numbers that are no number are those of a zero and an infinity,
of two zeros and of two infinities. A decimal is read by scaling with a power of ten, which is
neither zero nor infinite (`Unpacked.isNonzero`).
-/

namespace ThreeAddress

open Float.Model (Format UnpackedFloat)

/-- **A float is equal to itself exactly if it is a number.** -/
theorem beq_self_iff {x : Float} : (x == x) = true ↔ x.isNaN = false := by
  show (x.toModel.unpack.compare x.toModel.unpack == some .eq) = true ↔
    x.toModel.unpack.isNaN = false
  cases x.toModel.unpack with
  | notANumber => decide
  | infinity s => cases s <;> decide
  | zero s => exact ⟨fun _ => rfl, fun _ => rfl⟩
  | finite s m e hm =>
    have hequal : (compare e e).then (compare m m) = .eq := by simp
    cases s with
    | positive =>
      show (some ((compare e e).then (compare m m)) == some .eq) = true ↔ false = false
      rw [hequal]
      decide
    | negative =>
      show (some ((compare e e).then (compare m m)).swap == some .eq) = true ↔ false = false
      rw [hequal]
      decide

/-! ## Scaling -/

namespace Unpacked

/-- Whether a float is a number other than zero and the infinities. -/
def isNonzero : UnpackedFloat → Bool
  | .finite .. => true
  | _ => false

variable {u v : UnpackedFloat}

/-- Packing may make a float infinite, but keeps it a number. -/
theorem isNaN_pack (h : u.isNaN = false) :
    (UnpackedFloat.unpack Format.binary64 (UnpackedFloat.pack Format.binary64 u)).isNaN =
      false := by
  have hinfinite : ∀ s, (UnpackedFloat.unpack Format.binary64
      (UnpackedFloat.packedInfinity Format.binary64 s)).isNaN = false := by
    intro s
    cases s <;> rfl
  cases u with
  | notANumber => cases h
  | infinity s => exact hinfinite s
  | zero s => cases s <;> rfl
  | finite s m e hm =>
    unfold UnpackedFloat.pack
    dsimp only
    split_ifs with hlarge hnormal
    · exact hinfinite s
    -- A finite float has an exponent below the one with all bits set.
    · refine (Literal.unpack_of_not_ones ?_).2
      rw [UnpackedFloat.unpackExponent_packComponents]
      intro hones
      have hexponent := congrArg BitVec.toNat hones
      simp at hexponent hlarge
      omega
    · refine (Literal.unpack_of_not_ones ?_).2
      rw [UnpackedFloat.unpackExponent_packComponents]
      decide

theorem isNaN_ite {p : Prop} [Decidable p] (hu : u.isNaN = false) (hv : v.isNaN = false) :
    (ite p u v).isNaN = false := by
  by_cases h : p
  · rwa [if_pos h]
  · rwa [if_neg h]

theorem isNaN_dite {p : Prop} [Decidable p] {yes : p → UnpackedFloat} {no : ¬ p → UnpackedFloat}
    (hyes : ∀ h, (yes h).isNaN = false) (hno : ∀ h, (no h).isNaN = false) :
    (dite p yes no).isNaN = false := by
  by_cases h : p
  · rw [dif_pos h]
    exact hyes h
  · rw [dif_neg h]
    exact hno h

theorem isNaN_roundWithAccuracy (spec : Format) (s : UnpackedFloat.Sign) (m : Nat) (e : Int)
    (accuracy : UnpackedFloat.Accuracy) :
    (UnpackedFloat.roundWithAccuracy spec s m e accuracy).isNaN = false := by
  unfold UnpackedFloat.roundWithAccuracy
  exact isNaN_dite (fun _ => rfl) (fun _ => rfl)

theorem isNaN_mul (spec : Format) (hu : u.isNaN = false) (hv : isNonzero v = true) :
    (UnpackedFloat.mul spec u v).isNaN = false := by
  cases v with
  | finite =>
    cases u with
    | notANumber => cases hu
    | infinity | zero => rfl
    | finite => exact isNaN_roundWithAccuracy _ _ _ _ _
  | _ => cases hv

theorem isNaN_div (spec : Format) (hu : u.isNaN = false) (hv : isNonzero v = true) :
    (UnpackedFloat.div spec u v).isNaN = false := by
  cases v with
  | finite =>
    cases u with
    | notANumber => cases hu
    | infinity | zero => rfl
    | finite => exact isNaN_roundWithAccuracy _ _ _ _ _
  | _ => cases hv

theorem isNaN_ofNat (spec : Format) (n : Nat) : (UnpackedFloat.ofNat spec n).isNaN = false := by
  unfold UnpackedFloat.ofNat UnpackedFloat.ofInt UnpackedFloat.normalize
  split
  · exact isNaN_roundWithAccuracy _ _ _ _ _
  · rfl
  · exact isNaN_roundWithAccuracy _ _ _ _ _

theorem isNaN_scientific (spec : Format) (m : Nat) (e : Int) :
    (UnpackedFloat.ofScientific spec m e).isNaN = false := by
  unfold UnpackedFloat.ofScientific
  refine isNaN_dite (fun _ => rfl) fun _ => isNaN_ite rfl (isNaN_ite rfl (isNaN_ite ?_ ?_))
  · exact isNaN_mul spec rfl rfl
  · exact isNaN_div spec rfl rfl

end Unpacked

/-! ## Decimals -/

namespace Literal

theorem isNonzero_powerOfTen {n : Nat} (h : n < Float.exactlyRepresentablePowersOfTen.size) :
    Unpacked.isNonzero Float.exactlyRepresentablePowersOfTen[n].toModel.unpack = true := by
  have hall : Float.exactlyRepresentablePowersOfTen.all
      (fun x => Unpacked.isNonzero x.toModel.unpack) = true := by
    decide +kernel
  exact Array.all_eq_true.1 hall n h

theorem isNaN_ofScientific (digits : Nat) (negative : Bool) (exponent : Nat) :
    (Float.ofScientific digits negative exponent).isNaN = false := by
  unfold Float.ofScientific
  by_cases hexact : digits < 2 ^ 53 ∧ exponent ≤ 22
  · rw [dif_pos hexact]
    have hdigits : digits.toUInt64.toFloat.isNaN = false :=
      Unpacked.isNaN_pack (Unpacked.isNaN_ofNat _ _)
    have hpower := isNonzero_powerOfTen (Nat.lt_succ_of_le hexact.2)
    cases negative with
    | false => exact Unpacked.isNaN_pack (Unpacked.isNaN_mul _ hdigits hpower)
    | true => exact Unpacked.isNaN_pack (Unpacked.isNaN_div _ hdigits hpower)
  · rw [dif_neg hexact]
    exact Unpacked.isNaN_pack (Unpacked.isNaN_scientific _ _ _)

/-- **A decimal is read as a number.** -/
theorem isNaN_nearest (digits : Nat) (exponent : Int) :
    (nearest digits exponent).isNaN = false := by
  unfold nearest
  dsimp only
  split_ifs
  · decide
  · decide
  · exact isNaN_ofScientific _ _ _

end Literal

end ThreeAddress
