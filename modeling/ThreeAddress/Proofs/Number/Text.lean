import ThreeAddress.Literal
import ThreeAddress.Proofs.Number.Magnitude
import ThreeAddress.Proofs.Number.Numeral

/-!
# Texts of numbers

The text of a float determines the float, bit for bit, and no text of an integer is one of a float.

* `Literal.WrittenFloat`: what the text of a float looks like, and what it tells of the bits.
* `Literal.floatText_injective`: no two floats have the same text.
* `Literal.intText_ne_floatText`: no integer has the text of a float.

A float that is not zero is written as a numeral that rounds to it, and that rounds to no other
float; sign, zero, the infinities and the value that is no number are told apart by their letters.
-/

namespace ThreeAddress.Literal

open Number
open Float.Model (Format UnpackedFloat)

/-! ## Bits -/

/-- The bits of a float without its sign. -/
def magnitude (x : Float) : Nat := x.toBits.toNat % 2 ^ 63

/-- Whether a float has a minus sign. -/
def isSigned (x : Float) : Bool := x.toBits >>> 63 = 1

/-- **Sign and magnitude make up the float.** -/
theorem eq_of_magnitude {x y : Float} (hsign : isSigned x = isSigned y)
    (hmagnitude : magnitude x = magnitude y) : x = y := by
  have hsigned : ∀ z : Float, isSigned z = decide (z.toBits.toNat / 2 ^ 63 = 1) := by
    intro z
    rw [isSigned, decide_eq_decide, ← UInt64.toNat_inj, UInt64.toNat_shiftRight]
    show z.toBits.toNat >>> 63 = 1 ↔ _
    rw [Nat.shiftRight_eq_div_pow]
  rw [hsigned, hsigned, decide_eq_decide] at hsign
  unfold magnitude at hmagnitude
  have hx := x.toBits.toNat_lt
  have hy := y.toBits.toNat_lt
  have hbits : x.toBits = y.toBits := UInt64.toNat_inj.1 (by omega)
  obtain ⟨⟨bits, _⟩⟩ := x
  obtain ⟨⟨bits', _⟩⟩ := y
  cases hbits
  rfl

theorem exponent_toNat (bits : UInt64) :
    (@UnpackedFloat.unpackExponent Format.binary64 bits.toBitVec).toNat =
      bits.toNat / 2 ^ 52 % 2 ^ 11 := by
  simp [UnpackedFloat.unpackExponent, BitVec.extractLsb_toNat, Nat.shiftRight_eq_div_pow]

theorem mantissa_toNat (bits : UInt64) :
    (@UnpackedFloat.unpackMantissa Format.binary64 bits.toBitVec).toNat =
      bits.toNat % 2 ^ 52 := by
  simp [UnpackedFloat.unpackMantissa, BitVec.extractLsb_toNat]

section Unpacking

variable {bits : BitVec 64}

/-- A float with all bits of the exponent set is infinite or no number. -/
theorem unpack_of_ones
    (h : @UnpackedFloat.unpackExponent Format.binary64 bits = -BitVec.ofNat _ 1) :
    UnpackedFloat.unpack Format.binary64 bits =
      if @UnpackedFloat.unpackMantissa Format.binary64 bits = BitVec.ofNat _ 0 then
        .infinity (.ofBitVec (@UnpackedFloat.unpackSign Format.binary64 bits))
      else .notANumber := by
  unfold UnpackedFloat.unpack
  dsimp only
  rw [if_pos h]

/-- Every other float is finite. -/
theorem unpack_of_not_ones
    (h : @UnpackedFloat.unpackExponent Format.binary64 bits ≠ -BitVec.ofNat _ 1) :
    (UnpackedFloat.unpack Format.binary64 bits).isInf = false ∧
      (UnpackedFloat.unpack Format.binary64 bits).isNaN = false := by
  unfold UnpackedFloat.unpack
  dsimp only
  rw [if_neg h]
  by_cases hexponent : @UnpackedFloat.unpackExponent Format.binary64 bits = BitVec.ofNat _ 0
  · rw [if_pos hexponent]
    by_cases hmantissa : @UnpackedFloat.unpackMantissa Format.binary64 bits = BitVec.ofNat _ 0
    · rw [dif_pos hmantissa]
      exact ⟨rfl, rfl⟩
    · rw [dif_neg hmantissa]
      exact ⟨rfl, rfl⟩
  · rw [if_neg hexponent]
    exact ⟨rfl, rfl⟩

end Unpacking

/-- The infinities have the same bits but for the sign. -/
theorem magnitude_of_isInf {x : Float} (h : x.isInf = true) : magnitude x = 2047 * 2 ^ 52 := by
  have hexponent := exponent_toNat x.toBits
  have hmantissa := mantissa_toNat x.toBits
  change (UnpackedFloat.unpack Format.binary64 x.toBits.toBitVec).isInf = true at h
  by_cases hones : @UnpackedFloat.unpackExponent Format.binary64 x.toBits.toBitVec =
      -BitVec.ofNat _ 1
  · rw [unpack_of_ones hones] at h
    by_cases hzero : @UnpackedFloat.unpackMantissa Format.binary64 x.toBits.toBitVec =
        BitVec.ofNat _ 0
    · rw [hones] at hexponent
      rw [hzero] at hmantissa
      simp only [BitVec.toNat_ofNat, Nat.zero_mod, BitVec.neg_one_eq_allOnes, BitVec.toNat_allOnes]
        at hexponent hmantissa
      unfold magnitude
      omega
    · rw [if_neg hzero] at h
      cases h
  · rw [(unpack_of_not_ones hones).1] at h
    cases h

/-- What is no number has the bits that stand for that. -/
theorem toBits_of_isNaN {x : Float} (h : x.isNaN = true) :
    x.toBits.toBitVec = UnpackedFloat.packedNaN Format.binary64 := by
  change (UnpackedFloat.unpack Format.binary64 x.toBits.toBitVec).isNaN = true at h
  by_cases hones : @UnpackedFloat.unpackExponent Format.binary64 x.toBits.toBitVec =
      -BitVec.ofNat _ 1
  · rw [unpack_of_ones hones] at h
    by_cases hzero : @UnpackedFloat.unpackMantissa Format.binary64 x.toBits.toBitVec =
        BitVec.ofNat _ 0
    · rw [if_pos hzero] at h
      cases h
    · exact x.toModel.valid.eq_packedNaN hones hzero
  · rw [(unpack_of_not_ones hones).2] at h
    cases h

/-- **There is one value that is no number.** -/
theorem eq_of_isNaN {x y : Float} (hx : x.isNaN = true) (hy : y.isNaN = true) : x = y := by
  have hbits : x.toBits = y.toBits :=
    UInt64.toBitVec_inj.1 ((toBits_of_isNaN hx).trans (toBits_of_isNaN hy).symm)
  exact eq_of_magnitude (by rw [isSigned, isSigned, hbits]) (by rw [magnitude, magnitude, hbits])

/-! ## Texts of floats -/

/-- What the text of a float without its sign tells of its magnitude. -/
inductive WrittenMagnitude (x : Float) : List Char → Prop
  | infinite : x.isInf = true → WrittenMagnitude x ['i', 'n', 'f']
  | zero {n : Numeral} : magnitude x = 0 → n.value = 0 → WrittenMagnitude x n.text
  | positive {n : Numeral} {m : Nat} {d : Decimal} :
      magnitude x = m + 1 → (Dyadic.ofMagnitude (m + 1)).rounds d = true → n.value = d.value →
      WrittenMagnitude x n.text

/-- What the text of a float looks like. -/
inductive WrittenFloat (x : Float) : List Char → Prop
  | notANumber : x.isNaN = true → WrittenFloat x ['n', 'a', 'n']
  | signed {cs : List Char} :
      isSigned x = true → WrittenMagnitude x cs → WrittenFloat x ('-' :: cs)
  | unsigned {cs : List Char} : isSigned x = false → WrittenMagnitude x cs → WrittenFloat x cs

/-- The numeral for zero. -/
def zeroNumeral : Numeral where
  whole := ['0']
  fraction := some ['0']
  exponent := none
  whole_ne := List.cons_ne_nil _ _
  whole_digits := allDigits_zeros 1
  fraction_digits := by
    rintro _ ⟨⟩
    exact allDigits_zeros 1
  exponent_digits := nofun
  marked := .inl nofun

theorem zeroNumeral_value : zeroNumeral.value = 0 := by
  have hdigits : Nat.ofDigitChars 10 ['0', '0'] 0 = 0 := rfl
  show ((Nat.ofDigitChars 10 ['0', '0'] 0 : Nat) : ℚ) * _ = 0
  rw [hdigits, Nat.cast_zero, zero_mul]

/-- What rounds to a float above zero is above zero. -/
theorem value_pos {m : Nat} {d : Decimal} (h : (Dyadic.ofMagnitude (m + 1)).rounds d = true) :
    0 < d.value := by
  have hunits : 0 < Dyadic.units m + Dyadic.units (m + 1) :=
    Nat.add_pos_right _ (Nat.zero_lt_of_lt (Dyadic.units_strictMono (Nat.lt_succ_self m)))
  have hlow : 0 < (Dyadic.ofMagnitude (m + 1)).low := by
    rw [Dyadic.low_eq]
    exact mul_pos (Nat.cast_pos.2 hunits) Dyadic.halfUnit_pos
  obtain ⟨hbelow | ⟨-, hbelow⟩, -⟩ := Dyadic.rounds_iff.1 h
  · exact hlow.trans hbelow
  · exact hbelow ▸ hlow

theorem digits_pos {d : Decimal} (h : 0 < d.value) : 0 < d.digits := by
  rcases Nat.eq_zero_or_pos d.digits with hzero | hpos
  · rw [Decimal.value, hzero, Nat.cast_zero, zero_mul] at h
    exact absurd h (lt_irrefl 0)
  · exact hpos

/-- The magnitude of a finite float is written as a numeral. -/
theorem writtenMagnitude (x : Float) :
    WrittenMagnitude x
      (if (Dyadic.ofBits x.toBits).significand = 0 then ['0', '.', '0']
        else floatLayout.decimal (Dyadic.ofBits x.toBits).shortest) := by
  rw [Dyadic.ofBits_eq, show x.toBits.toNat % 2 ^ 63 = magnitude x from rfl]
  cases hmagnitude : magnitude x with
  | zero => exact .zero (n := zeroNumeral) hmagnitude zeroNumeral_value
  | succ m =>
    have hpos := Dyadic.significand_pos (Nat.succ_pos m)
    have hrounds := Dyadic.rounds_shortest hpos
    obtain ⟨n, htext, hvalue⟩ := floatLayout.exists_numeral (digits_pos (value_pos hrounds))
    rw [if_neg hpos.ne', htext]
    exact .positive hmagnitude hrounds hvalue

/-- **How floats are written.** -/
theorem writtenFloat (x : Float) : WrittenFloat x (floatText x).toList := by
  have hsigned : ∀ {cs : List Char}, WrittenMagnitude x cs →
      WrittenFloat x ((if x.toBits >>> 63 = 1 then "-" else "") ++ String.ofList cs).toList := by
    intro cs h
    rw [String.toList_append, String.toList_ofList]
    by_cases hsign : x.toBits >>> 63 = 1
    · rw [if_pos hsign]
      exact .signed (decide_eq_true hsign) h
    · rw [if_neg hsign]
      exact .unsigned (decide_eq_false hsign) h
  unfold floatText Layout.float
  by_cases hnan : x.isNaN = true
  · rw [if_pos hnan]
    exact .notANumber hnan
  · rw [if_neg hnan]
    dsimp only
    by_cases hinfinite : x.isInf = true
    · rw [if_pos hinfinite]
      exact hsigned (.infinite hinfinite)
    · rw [if_neg hinfinite]
      have hwritten := writtenMagnitude x
      by_cases hzero : (Dyadic.ofBits x.toBits).significand = 0
      · rw [if_pos hzero] at hwritten ⊢
        exact hsigned hwritten
      · rw [if_neg hzero] at hwritten ⊢
        exact hsigned hwritten

/-! ## No two floats have the same text -/

theorem WrittenMagnitude.head {x : Float} {cs : List Char} (h : WrittenMagnitude x cs) :
    ∃ c ds, cs = c :: ds ∧ (c.isDigit = true ∨ c = 'i') := by
  cases h with
  | infinite => exact ⟨_, _, rfl, .inr rfl⟩
  | @zero n | @positive n =>
    obtain ⟨c, ds, htext, hc⟩ := n.exists_head
    exact ⟨c, ds, htext, .inl hc⟩

/-- A numeral is not the word for the infinities. -/
theorem text_ne_infinity (n : Numeral) : n.text ≠ ['i', 'n', 'f'] := by
  intro h
  obtain ⟨c, ds, htext, hc⟩ := n.exists_head
  rw [h] at htext
  cases htext
  cases hc

/-- **The text without its sign determines the magnitude.** -/
theorem WrittenMagnitude.unique {x y : Float} {cs : List Char} (hx : WrittenMagnitude x cs)
    (hy : WrittenMagnitude y cs) : magnitude x = magnitude y := by
  cases hx with
  | infinite hinfinite =>
    generalize htext : ['i', 'n', 'f'] = text at hy
    cases hy with
    | infinite hinfinite' =>
      rw [magnitude_of_isInf hinfinite, magnitude_of_isInf hinfinite']
    | @zero n | @positive n => exact absurd htext.symm (text_ne_infinity n)
  | @zero n hzero hvalue =>
    generalize htext : n.text = text at hy
    cases hy with
    | infinite => exact absurd htext (text_ne_infinity n)
    | zero hzero' => rw [hzero, hzero']
    | positive _ hrounds hvalue' =>
      have hpos := value_pos hrounds
      rw [← hvalue', ← Numeral.value_eq_of_text htext, hvalue] at hpos
      exact absurd hpos (lt_irrefl 0)
  | @positive n m d hmagnitude hrounds hvalue =>
    generalize htext : n.text = text at hy
    cases hy with
    | infinite => exact absurd htext (text_ne_infinity n)
    | zero _ hvalue' =>
      have hpos := value_pos hrounds
      rw [← hvalue, Numeral.value_eq_of_text htext, hvalue'] at hpos
      exact absurd hpos (lt_irrefl 0)
    | positive hmagnitude' hrounds' hvalue' =>
      have hsame : d.value = _ :=
        hvalue.symm.trans ((Numeral.value_eq_of_text htext).trans hvalue')
      rw [hmagnitude, hmagnitude', Dyadic.rounds_unique hrounds hrounds' hsame]

theorem WrittenFloat.unique {x y : Float} {cs : List Char} (hx : WrittenFloat x cs)
    (hy : WrittenFloat y cs) : x = y := by
  -- The first character tells the three ways to write a float apart.
  have hfirst : ∀ {z : Float} {c : Char} {ds : List Char}, WrittenMagnitude z (c :: ds) →
      c ≠ '-' ∧ c ≠ 'n' := by
    intro z c ds h
    obtain ⟨c', ds', heq, hc⟩ := h.head
    cases heq
    rcases hc with hc | rfl
    · exact ⟨Numeral.ne_of_isDigit hc (by decide), Numeral.ne_of_isDigit hc (by decide)⟩
    · exact ⟨by decide, by decide⟩
  cases hx with
  | notANumber hnan =>
    cases hy with
    | notANumber hnan' => exact eq_of_isNaN hnan hnan'
    | unsigned _ h => exact absurd rfl (hfirst h).2
  | signed hsign h =>
    cases hy with
    | signed hsign' h' => exact eq_of_magnitude (hsign.trans hsign'.symm) (h.unique h')
    | unsigned _ h' => exact absurd rfl (hfirst h').1
  | unsigned hsign h =>
    cases hy with
    | notANumber => exact absurd rfl (hfirst h).2
    | signed => exact absurd rfl (hfirst h).1
    | unsigned hsign' h' => exact eq_of_magnitude (hsign.trans hsign'.symm) (h.unique h')

/-- **The text of a float determines the float.** -/
theorem floatText_injective : Function.Injective floatText := by
  intro x y h
  have hy := writtenFloat y
  rw [← h] at hy
  exact (writtenFloat x).unique hy

theorem floatText_infinity : floatText infinity = "inf" := by decide

theorem floatText_notANumber : floatText notANumber = "nan" := by decide

/-- Two floats have a word as their text, and the others start as numbers do. -/
theorem floatText_cases (x : Float) :
    x = infinity ∨ x = notANumber ∨
      ∃ c cs, (floatText x).toList = c :: cs ∧ (c.isDigit = true ∨ c = '-') := by
  have hx := writtenFloat x
  generalize htext : (floatText x).toList = text at hx ⊢
  cases hx with
  | notANumber =>
    refine .inr (.inl (floatText_injective ?_))
    rw [floatText_notANumber, ← String.toList_inj]
    exact htext
  | @signed cs => exact .inr (.inr ⟨'-', cs, rfl, .inr rfl⟩)
  | unsigned _ h =>
    cases h with
    | infinite =>
      refine .inl (floatText_injective ?_)
      rw [floatText_infinity, ← String.toList_inj]
      exact htext
    | @zero n | @positive n =>
      obtain ⟨c, cs, hn, hc⟩ := n.exists_head
      exact .inr (.inr ⟨c, cs, hn, .inl hc⟩)

/-! ## Texts of integers -/

/-- What the text of an integer looks like. -/
inductive WrittenInt : ℤ → List Char → Prop
  | natural (n : ℕ) : WrittenInt n (Nat.toDigits 10 n)
  | negative (n : ℕ) : WrittenInt (-n) ('-' :: Nat.toDigits 10 n)

theorem writtenInt (n : ℤ) : WrittenInt n (intText n).toList := by
  rw [intText, Int.toString_eq_repr]
  cases n with
  | ofNat n =>
    rw [Int.repr, Nat.toList_repr]
    exact .natural n
  | negSucc n =>
    rw [Int.repr, String.toList_append, Nat.toList_repr]
    exact .negative (n + 1)

theorem toDigits_ne_minus (n : ℕ) : ∀ c ∈ Nat.toDigits 10 n, c ≠ '-' :=
  fun c hc => Numeral.ne_of_isDigit (allDigits_toDigits n c hc) (by decide)

theorem toDigits_injective {m n : ℕ} (h : Nat.toDigits 10 m = Nat.toDigits 10 n) : m = n := by
  have hread := congrArg (fun cs => Nat.ofDigitChars 10 cs 0) h
  simpa only [Nat.ofDigitChars_ten_toDigits] using hread

theorem WrittenInt.unique {m n : ℤ} {cs : List Char} (hm : WrittenInt m cs)
    (hn : WrittenInt n cs) : m = n := by
  cases hm with
  | natural m =>
    generalize htext : Nat.toDigits 10 m = text at hn
    cases hn with
    | natural n => rw [toDigits_injective htext]
    | negative n => exact absurd rfl (toDigits_ne_minus m '-' (htext ▸ List.mem_cons_self))
  | negative m =>
    generalize htext : '-' :: Nat.toDigits 10 m = text at hn
    cases hn with
    | natural n => exact absurd rfl (toDigits_ne_minus n '-' (htext ▸ List.mem_cons_self))
    | negative n => rw [toDigits_injective (List.cons.inj htext).2]

/-- **The text of an integer determines the integer.** -/
theorem intText_injective : Function.Injective intText := by
  intro m n h
  have hn := writtenInt n
  rw [← h] at hn
  exact (writtenInt m).unique hn

/-- There is nothing in an integer but digits and a minus sign. -/
theorem WrittenInt.forall_mem {n : ℤ} {cs : List Char} (h : WrittenInt n cs) :
    ∀ c ∈ cs, c.isDigit = true ∨ c = '-' := by
  cases h with
  | natural n => exact fun c hc => .inl (allDigits_toDigits n c hc)
  | negative n =>
    exact List.forall_mem_cons.2 ⟨.inr rfl, fun c hc => .inl (allDigits_toDigits n c hc)⟩

theorem WrittenInt.head {n : ℤ} {cs : List Char} (h : WrittenInt n cs) :
    ∃ c ds, cs = c :: ds ∧ (c.isDigit = true ∨ c = '-') := by
  have hne : cs ≠ [] := by
    cases h with
    | natural n => exact Nat.toDigits_ne_nil
    | negative n => exact List.cons_ne_nil _ _
  obtain ⟨c, ds, rfl⟩ := List.exists_cons_of_ne_nil hne
  exact ⟨c, ds, rfl, h.forall_mem c List.mem_cons_self⟩

/-! ## Integers and floats -/

theorem WrittenMagnitude.exists_mark {x : Float} {cs : List Char} (h : WrittenMagnitude x cs) :
    ∃ c ∈ cs, c = '.' ∨ c = 'e' ∨ c = 'n' := by
  cases h with
  | infinite => exact ⟨'n', by decide, .inr (.inr rfl)⟩
  | @zero n | @positive n =>
    rcases n.exists_mark with h | h
    · exact ⟨'.', h, .inl rfl⟩
    · exact ⟨'e', h, .inr (.inl rfl)⟩

/-- Some character of the text of a float is none of an integer. -/
theorem WrittenFloat.exists_mark {x : Float} {cs : List Char} (h : WrittenFloat x cs) :
    ∃ c ∈ cs, c = '.' ∨ c = 'e' ∨ c = 'n' := by
  cases h with
  | notANumber => exact ⟨'n', by decide, .inr (.inr rfl)⟩
  | signed _ h =>
    obtain ⟨c, hc, hmark⟩ := h.exists_mark
    exact ⟨c, List.mem_cons_of_mem _ hc, hmark⟩
  | unsigned _ h => exact h.exists_mark

/-- **No integer has the text of a float.** -/
theorem intText_ne_floatText (n : ℤ) (x : Float) : intText n ≠ floatText x := by
  intro h
  obtain ⟨c, hc, hmark⟩ := (writtenFloat x).exists_mark
  rw [← h] at hc
  rcases (writtenInt n).forall_mem c hc with hdigit | rfl
  · rcases hmark with rfl | rfl | rfl <;> cases hdigit
  · rcases hmark with h | h | h <;> cases h

/-! ## Characters -/

/-- The characters of numbers. -/
def isNumberChar (c : Char) : Bool := Numeral.isNumeralChar c || c ∈ ['i', 'n', 'f', 'a']

theorem WrittenMagnitude.forall_isNumberChar {x : Float} {cs : List Char}
    (h : WrittenMagnitude x cs) : ∀ c ∈ cs, isNumberChar c = true := by
  cases h with
  | infinite => exact List.all_eq_true.1 rfl
  | @zero n | @positive n =>
    intro c hc
    rw [isNumberChar, n.forall_isNumeralChar c hc, Bool.true_or]

theorem WrittenFloat.forall_isNumberChar {x : Float} {cs : List Char} (h : WrittenFloat x cs) :
    ∀ c ∈ cs, isNumberChar c = true := by
  cases h with
  | notANumber => exact List.all_eq_true.1 rfl
  | signed _ h => exact List.forall_mem_cons.2 ⟨by decide, h.forall_isNumberChar⟩
  | unsigned _ h => exact h.forall_isNumberChar

theorem WrittenInt.forall_isNumberChar {n : ℤ} {cs : List Char} (h : WrittenInt n cs) :
    ∀ c ∈ cs, isNumberChar c = true := by
  intro c hc
  rcases h.forall_mem c hc with hdigit | rfl
  · rw [isNumberChar, Numeral.isNumeralChar, hdigit]
    rfl
  · decide

end ThreeAddress.Literal
