/-!
# Range tables

A property of characters is kept as a table of code point ranges, ascending and disjoint.
Looking a code point up gives its place inside the range that holds it, so one table serves
both as a set and as a run of digits.

## Main results

* `RangeTable.offset?_eq_some`: a code point that is found lies in a range of the table.
* `RangeTable.mem_of_contains`: the same for the set view.
-/

namespace ThreeAddress

/-- Ranges `(first, last)` of code points, both ends included, in ascending order. -/
abbrev RangeTable := List (Nat × Nat)

namespace RangeTable

/-- The distance of a code point from the start of the range that holds it. Ranges ascend, so the
search ends at the first range that starts above the code point. -/
def offset? : RangeTable → Nat → Option Nat
  | [], _ => none
  | (first, last) :: rest, n =>
    if n < first then none else if n ≤ last then some (n - first) else offset? rest n

/-- Whether some range of the table holds the code point. -/
def contains (table : RangeTable) (n : Nat) : Bool := (table.offset? n).isSome

theorem offset?_eq_some {table : RangeTable} {n k : Nat} (h : table.offset? n = some k) :
    ∃ r ∈ table, r.1 ≤ n ∧ n ≤ r.2 ∧ k = n - r.1 := by
  induction table with
  | nil => simp [offset?] at h
  | cons r rest ih =>
    obtain ⟨first, last⟩ := r
    simp only [offset?] at h
    split at h
    · simp at h
    · split at h
      · exact ⟨(first, last), by simp, by omega, by assumption, by simpa using h.symm⟩
      · obtain ⟨r, hr, hn⟩ := ih h
        exact ⟨r, List.mem_cons_of_mem _ hr, hn⟩

theorem mem_of_contains {table : RangeTable} {n : Nat} (h : table.contains n = true) :
    ∃ r ∈ table, r.1 ≤ n ∧ n ≤ r.2 := by
  obtain ⟨k, hk⟩ := Option.isSome_iff_exists.1 h
  obtain ⟨r, hr, h₁, h₂, -⟩ := offset?_eq_some hk
  exact ⟨r, hr, h₁, h₂⟩

end RangeTable

end ThreeAddress
