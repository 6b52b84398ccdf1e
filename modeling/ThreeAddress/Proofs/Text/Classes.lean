import Mathlib.Tactic.SplitIfs
import ThreeAddress.Text.Blank
import ThreeAddress.Text.DecimalDigit
import ThreeAddress.Text.Letter

/-!
# Classes of characters

Letters, decimal digits and blanks have no character in common. Their tables are long and ascend, so
that one pass over two of them tells whether they are apart.

* `RangeTable.apart`: the pass.
* `RangeTable.contains_eq_false_of_apart`: what it finds holds of all code points. That the tables
  ascend is not needed: the search for a code point, too, ends at the first range above it.
-/

namespace ThreeAddress

namespace RangeTable

/-- Whether the second table has no code point of a range, nor of what is still to come; ranges of
it that end before the range are skipped. -/
def apartFrom (r : Nat × Nat) (more : RangeTable → Bool) : RangeTable → Bool
  | [] => true
  | r' :: rest =>
    if r.2 < r'.1 then more (r' :: rest) else decide (r'.2 < r.1) && apartFrom r more rest

/-- Whether two tables have no code point in common, found in one pass over both. -/
def apart : RangeTable → RangeTable → Bool
  | [] => fun _ => true
  | r :: rest => apartFrom r (apart rest)

theorem contains_cons (r : Nat × Nat) (rest : RangeTable) (n : Nat) :
    contains (r :: rest) n = (decide (r.1 ≤ n) && (decide (n ≤ r.2) || contains rest n)) := by
  unfold contains
  rw [offset?]
  by_cases h₁ : n < r.1
  · simp [h₁, Nat.not_le.2 h₁]
  · by_cases h₂ : n ≤ r.2 <;> simp [h₁, h₂, Nat.not_lt.1 h₁]

theorem contains_eq_false_of_apart {table table' : RangeTable} {n : Nat}
    (h : apart table table' = true) (hn : table.contains n = true) : table'.contains n = false := by
  induction table generalizing table' with
  | nil => cases hn
  | cons r rest ih =>
    rw [apart] at h
    induction table' with
    | nil => rfl
    | cons r' rest' ih' =>
      rw [apartFrom] at h
      rw [contains_cons] at hn
      simp only [Bool.and_eq_true, Bool.or_eq_true, decide_eq_true_eq] at hn
      obtain ⟨hfirst, hn⟩ := hn
      split_ifs at h with hbefore
      · rcases hn with hlast | hrest
        · rw [contains_cons, decide_eq_false (by omega), Bool.false_and]
        · exact ih h hrest
      · simp only [Bool.and_eq_true, decide_eq_true_eq] at h
        rw [contains_cons, decide_eq_false (by omega : ¬ n ≤ r'.2), ih' h.2, Bool.or_false,
          Bool.and_false]

end RangeTable

namespace Text

theorem isLetter_of_isDecimalDigit {c : Char} (h : isDecimalDigit c = true) :
    isLetter c = false :=
  RangeTable.contains_eq_false_of_apart (by decide +kernel) h

/-- The digits of numbers are no letters. -/
theorem isLetter_of_isDigit {c : Char} (h : c.isDigit = true) : isLetter c = false := by
  have hrange : RangeTable.contains [(0x30, 0x39)] c.toNat = true := by
    simp only [Char.isDigit, Bool.and_eq_true, decide_eq_true_eq, ge_iff_le,
      UInt32.le_iff_toNat_le] at h
    rw [RangeTable.contains_cons, Bool.and_eq_true, Bool.or_eq_true, decide_eq_true_eq,
      decide_eq_true_eq]
    exact ⟨h.1, .inl h.2⟩
  exact RangeTable.contains_eq_false_of_apart rfl hrange

theorem isBlank_of_isLetter {c : Char} (h : isLetter c = true) : isBlank c = false :=
  RangeTable.contains_eq_false_of_apart (by decide +kernel) h

end Text

end ThreeAddress
