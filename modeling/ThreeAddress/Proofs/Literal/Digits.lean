import Mathlib.Data.List.TakeDrop
import Mathlib.Data.List.TakeWhile
import ThreeAddress.Literal

/-!
# Reading digits

What the readers of numbers make of a text of digits: an integer from digits alone, a float from
digits around a point. A digit is neither a margin nor a sign nor a letter, so nothing is taken off
such a text before its digits are read.
-/

namespace ThreeAddress

/-- A code point of one table is in no other that has only ranges apart from it. -/
theorem RangeTable.contains_eq_false {table table' : RangeTable} {n : Nat}
    (hapart : (table.all fun r => table'.all fun r' => r.2 < r'.1 || r'.2 < r.1) = true)
    (h : table.contains n = true) : table'.contains n = false := by
  rw [Bool.eq_false_iff]
  intro hn
  obtain ⟨r, hr, h₁, h₂⟩ := mem_of_contains h
  obtain ⟨r', hr', h₁', h₂'⟩ := mem_of_contains hn
  have hpair := List.all_eq_true.1 (List.all_eq_true.1 hapart r hr) r' hr'
  simp only [Bool.or_eq_true, decide_eq_true_eq] at hpair
  omega

namespace Literal

open Text

/-! ## Digits among characters -/

theorem isBlank_of_isDecimalDigit {c : Char} (h : isDecimalDigit c = true) : isBlank c = false :=
  RangeTable.contains_eq_false (by decide) h

theorem isMargin_of_isDecimalDigit {c : Char} (h : isDecimalDigit c = true) :
    isMargin c = false := by
  rw [isMargin, isBlank_of_isDecimalDigit h, Bool.false_and]

/-- A digit is no character that is known not to be one. -/
theorem ne_of_isDecimalDigit {c d : Char} (h : isDecimalDigit c = true)
    (hd : isDecimalDigit d = false) : c ≠ d := by
  intro heq
  rw [heq, hd] at h
  cases h

/-- A digit has no other case. -/
theorem toLower_of_isDecimalDigit {c : Char} (h : isDecimalDigit c = true) : c.toLower = c := by
  unfold Char.toLower
  split
  · next hcase =>
    have hletter : RangeTable.contains [(65, 90)] c.toNat = true := by
      have h₁ : 65 ≤ c.toNat := hcase.1
      have h₂ : c.toNat ≤ 90 := hcase.2
      simp [RangeTable.contains, RangeTable.offset?, h₂, Nat.not_lt.2 h₁]
    have hdigit : decimalDigits.contains c.toNat = false :=
      RangeTable.contains_eq_false (by decide) hletter
    rw [isDecimalDigit, hdigit] at h
    cases h
  · rfl

/-! ## Texts of digits -/

/-- The digits of a text that has nothing else. -/
theorem mapM_digitValue? {cs : List Char} (h : ∀ c ∈ cs, isDecimalDigit c = true) :
    ∃ ds, cs.mapM digitValue? = some ds ∧ ds.length = cs.length := by
  induction cs with
  | nil => exact ⟨[], rfl, rfl⟩
  | cons c cs ih =>
    obtain ⟨hc, hcs⟩ := List.forall_mem_cons.1 h
    obtain ⟨ds, hds, hlength⟩ := ih hcs
    rw [← digitValue?_isSome, Option.isSome_iff_exists] at hc
    obtain ⟨d, hd⟩ := hc
    exact ⟨d :: ds, by simp [hd, hds], by simp [hlength]⟩

theorem isDecimalDigit_of_mapM {cs : List Char} {ds : List Nat}
    (h : cs.mapM digitValue? = some ds) : ∀ c ∈ cs, isDecimalDigit c = true := by
  induction cs generalizing ds with
  | nil => exact fun c hc => absurd hc List.not_mem_nil
  | cons c cs ih =>
    rw [List.mapM_cons] at h
    obtain ⟨d, hd, h⟩ := Option.bind_eq_some_iff.1 h
    obtain ⟨rest, hrest, -⟩ := Option.bind_eq_some_iff.1 h
    refine List.forall_mem_cons.2 ⟨?_, ih hrest⟩
    rw [← digitValue?_isSome, hd, Option.isSome_some]

/-- Behind a digit a text of digits is read to its end. -/
theorem digitsFrom?_true {cs : List Char} {ds : List Nat} (h : cs.mapM digitValue? = some ds) :
    digitsFrom? true cs = some ds := by
  induction cs generalizing ds with
  | nil => exact h
  | cons c cs ih =>
    have hc : c ≠ '_' :=
      ne_of_isDecimalDigit (isDecimalDigit_of_mapM h c List.mem_cons_self) (by decide)
    rw [List.mapM_cons] at h
    obtain ⟨d, hd, h⟩ := Option.bind_eq_some_iff.1 h
    obtain ⟨rest, hrest, h⟩ := Option.bind_eq_some_iff.1 h
    cases h
    rw [digitsFrom?, hd, ih hrest]
    · rfl
    · exact fun heq => hc heq

theorem digits?_eq {cs : List Char} {ds : List Nat} (h : cs.mapM digitValue? = some ds)
    (hne : cs ≠ []) : digits? cs = some ds := by
  cases cs with
  | nil => exact absurd rfl hne
  | cons c cs =>
    have hread := digitsFrom?_true h
    have hc : c ≠ '_' :=
      ne_of_isDecimalDigit (isDecimalDigit_of_mapM h c List.mem_cons_self) (by decide)
    rw [digitsFrom?] at hread
    · rw [digits?, digitsFrom?]
      · exact hread
      · exact fun heq => hc heq
    · exact fun heq => hc heq

/-! ## Margins and signs -/

theorem withoutMargins_eq {cs : List Char} (h : ∀ c ∈ cs, isMargin c = false) :
    withoutMargins cs = cs := by
  have hdrop : ∀ {cs : List Char}, (∀ c ∈ cs, isMargin c = false) → cs.dropWhile isMargin = cs := by
    intro cs h
    cases cs with
    | nil => rfl
    | cons c cs => rw [List.dropWhile_cons, h c List.mem_cons_self, if_neg Bool.false_ne_true]
  rw [withoutMargins, hdrop h, hdrop fun c hc => h c (List.mem_reverse.1 hc), List.reverse_reverse]

theorem splitSign_eq {c : Char} {cs : List Char} (h : isDecimalDigit c = true) :
    splitSign (c :: cs) = (false, c :: cs) := by
  have hminus : c ≠ '-' := ne_of_isDecimalDigit h (by decide)
  have hplus : c ≠ '+' := ne_of_isDecimalDigit h (by decide)
  rw [splitSign]
  · exact fun _ heq => hminus (List.cons.inj heq).1
  · exact fun _ heq => hplus (List.cons.inj heq).1

/-! ## Integers -/

/-- **A text of digits is an integer unless it is too long.** -/
theorem readInt?_eq {cs : List Char} {ds : List Nat} (h : cs.mapM digitValue? = some ds)
    (hne : cs ≠ []) :
    readInt? cs = if ds.length ≤ digitLimit then some (value ds : Int) else none := by
  have hdigits := isDecimalDigit_of_mapM h
  have hmargins : withoutMargins cs = cs :=
    withoutMargins_eq fun c hc => isMargin_of_isDecimalDigit (hdigits c hc)
  have hsign : splitSign cs = (false, cs) := by
    cases cs with
    | nil => exact absurd rfl hne
    | cons c cs => exact splitSign_eq (hdigits c List.mem_cons_self)
  rw [readInt?, hmargins, hsign]
  show (digits? cs >>= _) = _
  rw [digits?_eq h hne]
  rfl

/-! ## Floats -/

theorem splitAtFirst_none {p : Char → Bool} {cs : List Char} (h : ∀ c ∈ cs, p c = false) :
    splitAtFirst p cs = (cs, none) := by
  have hall : ∀ c ∈ cs, (!p c) = true := fun c hc => by rw [h c hc, Bool.not_false]
  rw [splitAtFirst, List.span_eq_takeWhile_dropWhile, List.takeWhile_eq_self_iff.2 hall,
    List.dropWhile_eq_nil_iff.2 hall]

theorem splitAtFirst_append {p : Char → Bool} {before after : List Char} {c : Char}
    (h : ∀ d ∈ before, p d = false) (hc : p c = true) :
    splitAtFirst p (before ++ c :: after) = (before, some after) := by
  have hall : ∀ d ∈ before, (!p d) = true := fun d hd => by rw [h d hd, Bool.not_false]
  rw [splitAtFirst, List.span_eq_takeWhile_dropWhile, List.takeWhile_append_of_pos hall,
    List.dropWhile_append_of_pos hall, List.takeWhile_cons, List.dropWhile_cons, hc,
    Bool.not_true, if_neg Bool.false_ne_true, if_neg Bool.false_ne_true, List.append_nil]

theorem optionalDigits?_eq {cs : List Char} {ds : List Nat} (h : cs.mapM digitValue? = some ds) :
    optionalDigits? cs = some ds := by
  cases cs with
  | nil => exact h
  | cons c cs => exact digits?_eq h (List.cons_ne_nil c cs)

/-- A text that starts with a digit is none of the words for floats. -/
theorem word_ne {c d : Char} {cs ds : List Char} (hc : isDecimalDigit c = true)
    (hd : isDecimalDigit d = false) :
    String.ofList ((c :: cs).map Char.toLower) ≠ String.ofList (d :: ds) := by
  intro h
  rw [String.ofList_inj, List.map_cons, toLower_of_isDecimalDigit hc] at h
  exact ne_of_isDecimalDigit hc hd (List.cons.inj h).1

section Point

variable {whole fraction : List Char}

/-- What no digit and no point is, is nowhere in digits around a point. -/
theorem forall_mem_point {p : Char → Bool} (hwhole : ∀ c ∈ whole, isDecimalDigit c = true)
    (hfraction : ∀ c ∈ fraction, isDecimalDigit c = true)
    (hp : ∀ c, isDecimalDigit c = true → p c = false) (hpoint : p '.' = false) :
    ∀ c ∈ whole ++ '.' :: fraction, p c = false := by
  intro c hc
  rcases List.mem_append.1 hc with hc | hc
  · exact hp c (hwhole c hc)
  · rcases List.mem_cons.1 hc with rfl | hc
    · exact hpoint
    · exact hp c (hfraction c hc)

variable {ds es : List Nat}

theorem readMagnitude?_eq (hwhole : whole.mapM digitValue? = some ds)
    (hfraction : fraction.mapM digitValue? = some es) (hne : whole ≠ []) :
    readMagnitude? (whole ++ '.' :: fraction) =
      some (nearest (value (ds ++ es)) (0 - es.length)) := by
  have hdigits := isDecimalDigit_of_mapM hwhole
  have hexponent : splitAtFirst (fun c => c = 'e' || c = 'E') (whole ++ '.' :: fraction) =
      (whole ++ '.' :: fraction, none) := by
    refine splitAtFirst_none
      (forall_mem_point hdigits (isDecimalDigit_of_mapM hfraction) (fun c hc => ?_) (by decide))
    have he : c ≠ 'e' := ne_of_isDecimalDigit hc (by decide)
    have hE : c ≠ 'E' := ne_of_isDecimalDigit hc (by decide)
    simp [he, hE]
  have hpoint : splitAtFirst (· = '.') (whole ++ '.' :: fraction) = (whole, some fraction) := by
    refine splitAtFirst_append (fun c hc => ?_) (by decide)
    have hc : c ≠ '.' := ne_of_isDecimalDigit (hdigits c hc) (by decide)
    simp [hc]
  have hds : ds.isEmpty = false := by
    cases whole with
    | nil => exact absurd rfl hne
    | cons c cs =>
      obtain ⟨ds', hds', hlength⟩ := mapM_digitValue? hdigits
      rw [hwhole] at hds'
      cases hds'
      cases ds with
      | nil => cases hlength
      | cons d ds => rfl
  simp only [readMagnitude?, hexponent, hpoint, readExponent?, optionalDigits?_eq hwhole,
    Option.getD_some, optionalDigits?_eq hfraction, Option.bind_eq_bind, Option.bind_some, hds,
    Bool.false_and, Bool.false_eq_true, if_false]

/-- **A text of digits around a point is a float.** -/
theorem readFloat?_eq (hwhole : whole.mapM digitValue? = some ds)
    (hfraction : fraction.mapM digitValue? = some es) (hne : whole ≠ []) :
    readFloat? (whole ++ '.' :: fraction) =
      some (nearest (value (ds ++ es)) (0 - es.length)) := by
  have hdigits := isDecimalDigit_of_mapM hwhole
  have hmagnitude := readMagnitude?_eq hwhole hfraction hne
  have hmargins := withoutMargins_eq (forall_mem_point hdigits (isDecimalDigit_of_mapM hfraction)
    (fun c => isMargin_of_isDecimalDigit) (by decide))
  cases whole with
  | nil => exact absurd rfl hne
  | cons c cs =>
    have hc := hdigits c List.mem_cons_self
    have hinf : String.ofList (((c :: cs) ++ '.' :: fraction).map Char.toLower) ≠ "inf" :=
      word_ne hc (by decide)
    have hinfinity : String.ofList (((c :: cs) ++ '.' :: fraction).map Char.toLower) ≠ "infinity" :=
      word_ne hc (by decide)
    have hnan : String.ofList (((c :: cs) ++ '.' :: fraction).map Char.toLower) ≠ "nan" :=
      word_ne hc (by decide)
    have hsign : splitSign (c :: cs ++ '.' :: fraction) = (false, c :: cs ++ '.' :: fraction) :=
      splitSign_eq hc
    simp only [readFloat?, hmargins, hsign, hinf, hinfinity, hnan, or_self, if_false, hmagnitude,
      Option.bind_eq_bind, Option.bind_some, Bool.false_eq_true]
    rfl

end Point

end Literal

end ThreeAddress
