import Mathlib.Algebra.Order.Field.Power
import Mathlib.Algebra.Order.Field.Rat
import Mathlib.Tactic.FieldSimp
import Mathlib.Tactic.Ring
import ThreeAddress.Number.Layout
import ThreeAddress.Proofs.Literal.Digits
import ThreeAddress.Proofs.Number.Rounding

/-!
# Numerals

The texts of decimals: digits, then a point with digits or an exponent, or both.

* `Numeral`: the parts of such a text; `Numeral.value` is the number that it denotes.
* `Numeral.value_eq_of_text`: the text determines the number.
* `Layout.exists_numeral`: a decimal is laid out as a numeral that denotes the decimal.
-/

namespace ThreeAddress.Number

open Nat (ofDigitChars)

/-- The characters are digits. -/
def AllDigits (cs : List Char) : Prop := ∀ c ∈ cs, c.isDigit = true

/-- Digits with a point and digits behind them, or with an exponent, which has a sign. -/
structure Numeral where
  whole : List Char
  fraction : Option (List Char)
  exponent : Option (Bool × List Char)
  whole_ne : whole ≠ []
  whole_digits : AllDigits whole
  fraction_digits : ∀ ds ∈ fraction, AllDigits ds
  exponent_digits : ∀ e ∈ exponent, AllDigits e.2
  marked : fraction ≠ none ∨ exponent ≠ none

namespace Numeral

/-- The point and the digits behind it. -/
def fractionText : Option (List Char) → List Char
  | none => []
  | some ds => '.' :: ds

/-- The exponent behind its letter. -/
def exponentText : Option (Bool × List Char) → List Char
  | none => []
  | some (negative, ds) => 'e' :: (if negative then '-' else '+') :: ds

/-- The numeral as text. -/
def text (n : Numeral) : List Char :=
  n.whole ++ fractionText n.fraction ++ exponentText n.exponent

/-- The power of ten that an exponent stands for. -/
def exponentValue : Option (Bool × List Char) → ℤ
  | none => 0
  | some (negative, ds) => if negative then -(ofDigitChars 10 ds 0 : ℤ) else ofDigitChars 10 ds 0

/-- The number that the parts of a numeral denote. -/
def valueOf (whole : List Char) (fraction : Option (List Char))
    (exponent : Option (Bool × List Char)) : ℚ :=
  ofDigitChars 10 (whole ++ fraction.getD []) 0 *
    10 ^ (exponentValue exponent - (fraction.getD []).length)

/-- The number that a numeral denotes. -/
def value (n : Numeral) : ℚ := valueOf n.whole n.fraction n.exponent

/-! ## The text determines the number -/

theorem ne_of_isDigit {c d : Char} (h : c.isDigit = true) (hd : d.isDigit = false) : c ≠ d := by
  rintro rfl
  rw [hd] at h
  cases h

theorem fractionText_eq_of_append {whole whole' : List Char}
    {fraction fraction' : Option (List Char)} (hwhole : AllDigits whole)
    (hwhole' : AllDigits whole')
    (h : whole ++ fractionText fraction = whole' ++ fractionText fraction') :
    whole = whole' ∧ fraction = fraction' := by
  have hsplit : ∀ {ds : List Char} {f : Option (List Char)}, AllDigits ds →
      Literal.splitAtFirst (· = '.') (ds ++ fractionText f) = (ds, f) := by
    intro ds f hds
    have hpoint : ∀ c ∈ ds, decide (c = '.') = false :=
      fun c hc => decide_eq_false (ne_of_isDigit (hds c hc) (by decide))
    cases f with
    | none => rw [fractionText, List.append_nil, Literal.splitAtFirst_none hpoint]
    | some f => exact Literal.splitAtFirst_append hpoint (by decide)
  have hsame := (hsplit (f := fraction) hwhole).symm.trans
    ((congrArg _ h).trans (hsplit (f := fraction') hwhole'))
  exact Prod.mk.inj hsame

theorem exponentText_injective {e e' : Option (Bool × List Char)}
    (h : exponentText e = exponentText e') : e = e' := by
  match e, e' with
  | none, none => rfl
  | none, some _ => cases h
  | some _, none => cases h
  | some (negative, ds), some (negative', ds') =>
    obtain ⟨hsign, hds⟩ := List.cons.inj (List.cons.inj h).2
    rw [hds]
    cases negative <;> cases negative' <;> first | rfl | cases hsign

/-- There is no exponent in front of the exponent. -/
theorem front_ne (n : Numeral) : ∀ c ∈ n.whole ++ fractionText n.fraction, c ≠ 'e' := by
  intro c hc
  rcases List.mem_append.1 hc with hc | hc
  · exact ne_of_isDigit (n.whole_digits c hc) (by decide)
  · cases hfraction : n.fraction with
    | none =>
      rw [hfraction] at hc
      cases hc
    | some ds =>
      rw [hfraction] at hc
      rcases List.mem_cons.1 hc with rfl | hc
      · decide
      · exact ne_of_isDigit (n.fraction_digits ds hfraction c hc) (by decide)

/-- The front of a numeral, and what stands behind the letter of its exponent. -/
theorem split_text (n : Numeral) :
    Literal.splitAtFirst (· = 'e') n.text =
      (n.whole ++ fractionText n.fraction, (exponentText n.exponent).tail?) := by
  have hfront : ∀ c ∈ n.whole ++ fractionText n.fraction, decide (c = 'e') = false :=
    fun c hc => decide_eq_false (n.front_ne c hc)
  unfold text
  cases n.exponent with
  | none => rw [exponentText, List.append_nil, Literal.splitAtFirst_none hfront]; rfl
  | some e => exact Literal.splitAtFirst_append hfront (by decide)

/-- **The text of a numeral determines the number.** -/
theorem value_eq_of_text {n n' : Numeral} (h : n.text = n'.text) : n.value = n'.value := by
  have hsplit := n.split_text.symm.trans ((congrArg _ h).trans n'.split_text)
  obtain ⟨hfront, -⟩ := Prod.mk.inj hsplit
  obtain ⟨hwhole, hfraction⟩ := fractionText_eq_of_append n.whole_digits n'.whole_digits hfront
  have hexponent : n.exponent = n'.exponent := by
    unfold text at h
    rw [hfront] at h
    exact exponentText_injective (List.append_cancel_left h)
  rw [value, value, hwhole, hfraction, hexponent]

/-! ## Characters -/

theorem exists_head (n : Numeral) : ∃ c cs, n.text = c :: cs ∧ c.isDigit = true := by
  obtain ⟨c, cs, hwhole⟩ := List.exists_cons_of_ne_nil n.whole_ne
  refine ⟨c, cs ++ fractionText n.fraction ++ exponentText n.exponent, ?_, ?_⟩
  · rw [text, hwhole]
    rfl
  · exact n.whole_digits c (hwhole ▸ List.mem_cons_self)

/-- The characters of numerals. -/
def isNumeralChar (c : Char) : Bool := c.isDigit || c = '.' || c = 'e' || c = '+' || c = '-'

theorem forall_isNumeralChar (n : Numeral) : ∀ c ∈ n.text, isNumeralChar c = true := by
  have hdigit : ∀ c : Char, c.isDigit = true → isNumeralChar c = true := by
    intro c hc
    simp [isNumeralChar, hc]
  intro c hc
  unfold text at hc
  rcases List.mem_append.1 hc with hc | hc
  · rcases List.mem_append.1 hc with hc | hc
    · exact hdigit c (n.whole_digits c hc)
    · cases hfraction : n.fraction with
      | none =>
        rw [hfraction] at hc
        cases hc
      | some ds =>
        rw [hfraction] at hc
        rcases List.mem_cons.1 hc with rfl | hc
        · decide
        · exact hdigit c (n.fraction_digits ds hfraction c hc)
  · cases hexponent : n.exponent with
    | none =>
      rw [hexponent] at hc
      cases hc
    | some e =>
      rw [hexponent] at hc
      rcases List.mem_cons.1 hc with rfl | hc
      · decide
      · rcases List.mem_cons.1 hc with rfl | hc
        · cases e.1 <;> decide
        · exact hdigit c (n.exponent_digits e hexponent c hc)

/-- A numeral has a mark that no digits have. -/
theorem exists_mark (n : Numeral) : '.' ∈ n.text ∨ 'e' ∈ n.text := by
  unfold text
  rcases n.marked with h | h
  · obtain ⟨ds, hds⟩ := Option.ne_none_iff_exists'.1 h
    rw [hds]
    exact .inl (List.mem_append_left _ (List.mem_append_right _ List.mem_cons_self))
  · obtain ⟨e, he⟩ := Option.ne_none_iff_exists'.1 h
    rw [he]
    exact .inr (List.mem_append_right _ List.mem_cons_self)

end Numeral

/-! ## Layouts -/

theorem allDigits_append {cs ds : List Char} (h : AllDigits cs) (h' : AllDigits ds) :
    AllDigits (cs ++ ds) :=
  List.forall_mem_append.2 ⟨h, h'⟩

theorem allDigits_zeros (n : Nat) : AllDigits (List.replicate n '0') := by
  intro c hc
  rw [List.eq_of_mem_replicate hc]
  decide

theorem allDigits_toDigits (n : Nat) : AllDigits (Nat.toDigits 10 n) :=
  fun _ hc => Nat.isDigit_of_mem_toDigits (by decide) (by decide) hc

/-- Zeros are all that is taken off. -/
theorem exists_zeros (cs : List Char) : ∃ z, cs = stripZeros cs ++ List.replicate z '0' := by
  have hsplit := List.takeWhile_append_dropWhile (p := fun c => decide (c = '0')) (l := cs.reverse)
  have hzeros : cs.reverse.takeWhile (· = '0') =
      List.replicate (cs.reverse.takeWhile (· = '0')).length '0' := by
    refine List.eq_replicate_iff.2 ⟨rfl, fun c hc => ?_⟩
    have hzero := List.mem_takeWhile_imp hc
    simpa using hzero
  refine ⟨(cs.reverse.takeWhile (· = '0')).length, ?_⟩
  rw [hzeros] at hsplit
  have hreverse := congrArg List.reverse hsplit
  rw [List.reverse_append, List.reverse_replicate, List.reverse_reverse] at hreverse
  exact hreverse.symm

theorem ofDigitChars_zeros_append (n : Nat) (ds : List Char) :
    ofDigitChars 10 (List.replicate n '0' ++ ds) 0 = ofDigitChars 10 ds 0 := by
  rw [Nat.ofDigitChars_append, Nat.ofDigitChars_replicate_zero, Nat.mul_zero]

theorem ofDigitChars_append_zeros (ds : List Char) (n : Nat) :
    ofDigitChars 10 (ds ++ List.replicate n '0') 0 = ofDigitChars 10 ds 0 * 10 ^ n := by
  rw [Nat.ofDigitChars_append, Nat.ofDigitChars_replicate_zero, Nat.mul_comm]

section Layouts

variable {ds : List Char} (hne : ds ≠ []) (hds : AllDigits ds)

include hne hds

/-- **Digits with a point among them** are a numeral. -/
theorem exists_positional (point : ℤ) :
    ∃ n : Numeral, positional ds point = n.text ∧
      n.value = ofDigitChars 10 ds 0 * 10 ^ (point - ds.length) := by
  unfold positional
  by_cases hsmall : point ≤ 0
  · refine ⟨⟨['0'], some (List.replicate (-point).toNat '0' ++ ds), none, by simp, ?_, ?_, by simp,
      by simp⟩, ?_, ?_⟩
    · exact allDigits_zeros 1
    · rintro _ ⟨⟩
      exact allDigits_append (allDigits_zeros _) hds
    · rw [if_pos hsmall]
      simp [Numeral.text, Numeral.fractionText, Numeral.exponentText]
    · obtain ⟨k, hk⟩ := Int.eq_ofNat_of_zero_le (Int.neg_nonneg.2 hsmall)
      have hdigits : ofDigitChars 10 (['0'] ++ (List.replicate k '0' ++ ds)) 0 =
          ofDigitChars 10 ds 0 := by
        rw [← ofDigitChars_zeros_append (1 + k) ds, List.replicate_add, List.append_assoc]
        rfl
      simp only [Numeral.value, Numeral.valueOf, Numeral.exponentValue, Option.getD_some, hk,
        Int.toNat_natCast, hdigits, List.length_append, List.length_replicate]
      congr 2
      push_cast
      omega
  · rw [if_neg hsmall]
    obtain ⟨p, rfl⟩ := Int.eq_ofNat_of_zero_le (Int.le_of_lt (Int.not_le.1 hsmall))
    have hp : 0 < p := by omega
    by_cases hlarge : ds.length ≤ p
    · -- The point stands behind all digits.
      have hwhole : AllDigits (ds ++ List.replicate (p - ds.length) '0') :=
        allDigits_append hds (allDigits_zeros _)
      refine ⟨⟨ds ++ List.replicate (p - ds.length) '0', some ['0'], none, by simp [hne], hwhole,
        ?_, by simp, by simp⟩, ?_, ?_⟩
      · rintro _ ⟨⟩
        exact allDigits_zeros 1
      · rw [if_pos (Int.ofNat_le.2 hlarge)]
        simp [Numeral.text, Numeral.fractionText, Numeral.exponentText]
      · have hdigits : ofDigitChars 10 (ds ++ List.replicate (p - ds.length) '0' ++ ['0']) 0 =
            ofDigitChars 10 ds 0 * 10 ^ (p - ds.length + 1) := by
          rw [← ofDigitChars_append_zeros ds, List.replicate_succ', List.append_assoc]
        simp only [Numeral.value, Numeral.valueOf, Numeral.exponentValue, Option.getD_some, hdigits,
          List.length_singleton]
        rw [show (p : ℤ) - ds.length = ((p - ds.length : Nat) : ℤ) by omega, zpow_natCast]
        push_cast
        ring
    · have hsome : (ds.take p) ≠ [] := by
        intro hnil
        rcases List.take_eq_nil_iff.1 hnil with h | h
        · omega
        · exact hne h
      have hwhole : AllDigits (ds.take p) := fun c hc => hds c (List.mem_of_mem_take hc)
      refine ⟨⟨ds.take p, some (ds.drop p), none, hsome, hwhole, ?_, by simp, by simp⟩, ?_, ?_⟩
      · rintro _ ⟨⟩
        exact fun c hc => hds c (List.mem_of_mem_drop hc)
      · rw [if_neg (by omega)]
        simp [Numeral.text, Numeral.fractionText, Numeral.exponentText]
      · simp only [Numeral.value, Numeral.valueOf, Numeral.exponentValue, Option.getD_some,
          List.take_append_drop, List.length_drop]
        congr 2
        omega

/-- **Digits with an exponent** are a numeral. -/
theorem exists_scientific (width : Nat) (exponent : ℤ) :
    ∃ n : Numeral, scientific width ds exponent = n.text ∧
      n.value = ofDigitChars 10 ds 0 * 10 ^ (exponent + 1 - ds.length) := by
  have hexponent : exponentText width exponent = Numeral.exponentText (some (decide (exponent < 0),
      List.replicate (width - (Nat.toDigits 10 exponent.natAbs).length) '0' ++
        Nat.toDigits 10 exponent.natAbs)) := by
    simp [exponentText, Numeral.exponentText]
  have hvalue : Numeral.exponentValue (some (decide (exponent < 0),
      List.replicate (width - (Nat.toDigits 10 exponent.natAbs).length) '0' ++
        Nat.toDigits 10 exponent.natAbs)) = exponent := by
    rw [Numeral.exponentValue, ofDigitChars_zeros_append, Nat.ofDigitChars_ten_toDigits]
    simp only [decide_eq_true_eq]
    split <;> omega
  have hdigits := allDigits_append
    (allDigits_zeros (width - (Nat.toDigits 10 exponent.natAbs).length))
    (allDigits_toDigits exponent.natAbs)
  unfold scientific
  rw [hexponent]
  generalize List.replicate (width - (Nat.toDigits 10 exponent.natAbs).length) '0' ++
    Nat.toDigits 10 exponent.natAbs = es at hvalue hdigits
  match ds, hne, hds with
  | [d], _, hds =>
    refine ⟨⟨[d], none, some (decide (exponent < 0), es), by simp, hds, by simp, ?_, by simp⟩,
      ?_, ?_⟩
    · rintro _ ⟨⟩
      exact hdigits
    · simp [Numeral.text, Numeral.fractionText]
    · simp [Numeral.value, Numeral.valueOf, hvalue]
  | d :: d' :: rest, _, hds =>
    obtain ⟨hd, hrest⟩ := List.forall_mem_cons.1 hds
    refine ⟨⟨[d], some (d' :: rest), some (decide (exponent < 0), es), by simp,
      List.forall_mem_singleton.2 hd, ?_, ?_, by simp⟩, ?_, ?_⟩
    · rintro _ ⟨⟩
      exact hrest
    · rintro _ ⟨⟩
      exact hdigits
    · simp [Numeral.text, Numeral.fractionText]
    · simp only [Numeral.value, Numeral.valueOf, hvalue, Option.getD_some, List.length_cons]
      congr 2
      push_cast
      ring

end Layouts

/-- **A decimal as text is a numeral that denotes the decimal**, in every layout. -/
theorem Layout.exists_numeral (form : Layout) {d : Decimal} (h : 0 < d.digits) :
    ∃ n : Numeral, form.decimal d = n.text ∧ n.value = d.value := by
  obtain ⟨z, hz⟩ := exists_zeros (Nat.toDigits 10 d.digits)
  have hdigits : d.digits = ofDigitChars 10 (stripZeros (Nat.toDigits 10 d.digits)) 0 * 10 ^ z := by
    rw [← ofDigitChars_append_zeros, ← hz, Nat.ofDigitChars_ten_toDigits]
  have hall : AllDigits (stripZeros (Nat.toDigits 10 d.digits)) := by
    intro c hc
    refine allDigits_toDigits d.digits c ?_
    rw [hz]
    exact List.mem_append_left _ hc
  have hne : stripZeros (Nat.toDigits 10 d.digits) ≠ [] := by
    intro hnil
    rw [hnil] at hdigits
    simp at hdigits
    omega
  have hlength := congrArg List.length hz
  rw [List.length_append, List.length_replicate] at hlength
  unfold Layout.decimal
  dsimp only
  generalize stripZeros (Nat.toDigits 10 d.digits) = ds at hdigits hall hne hlength
  rw [hlength]
  have hvalue : d.value = ofDigitChars 10 ds 0 *
      10 ^ (((ds.length + z : Nat) : ℤ) + d.exponent - 1 + 1 - ds.length) := by
    rw [Decimal.value, hdigits, show ((ds.length + z : Nat) : ℤ) + d.exponent - 1 + 1 - ds.length =
      z + d.exponent by push_cast; ring, zpow_add₀ (by norm_num), zpow_natCast]
    push_cast
    ring
  rw [hvalue]
  split
  · exact exists_positional hne hall _
  · exact exists_scientific hne hall _ _

end ThreeAddress.Number
