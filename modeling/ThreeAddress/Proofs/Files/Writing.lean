import ThreeAddress.Files.Tree

/-!
# Writing a file

A file that is written is at the place that its path leads to, and every other place is as it was.
Whether a path can be written does not depend on what is written.

* `FileTree.Writable`: the paths that can be written.
* `FileTree.write_eq_ok_iff`: what writing does, and when.
* `FileTree.Alters`: two trees differ at one place at most, where a file has been written.
-/

namespace ThreeAddress.FileTree

/-! ## Entries -/

theorem lookup_setEntry (place place' : List String) (entry : FileEntry)
    (entries : List (List String × FileEntry)) :
    (setEntry place entry entries).lookup place' =
      if place' = place then some entry else entries.lookup place' := by
  induction entries with
  | nil =>
    by_cases h : place' = place
    · rw [setEntry, h, List.lookup_cons_self, if_pos rfl]
    · rw [setEntry, if_neg h, List.lookup_cons, beq_eq_false_iff_ne.2 h]
  | cons pair rest ih =>
    obtain ⟨p, e⟩ := pair
    rw [setEntry]
    by_cases hp : p = place
    · subst hp
      rw [if_pos rfl]
      by_cases h : place' = p
      · rw [h, List.lookup_cons_self, if_pos rfl]
      · rw [if_neg h, List.lookup_cons, List.lookup_cons, beq_eq_false_iff_ne.2 h]
    · rw [if_neg hp, List.lookup_cons, List.lookup_cons, ih]
      by_cases h : place' = p
      · rw [h, beq_self_eq_true]
        exact (if_neg hp).symm
      · rw [beq_eq_false_iff_ne.2 h]

/-- **A file is set at its place only.** -/
theorem entry?_set_of_ne (t : FileTree) {place place' : List String} (entry : FileEntry)
    (h : place' ≠ place) : FileTree.entry? (t.set place entry) place' = t.entry? place' := by
  unfold entry? set
  rw [lookup_setEntry, if_neg h]

/-! ## Paths that can be written -/

/-- A path can be written: it leads to a place that is no directory. -/
def Writable (t : FileTree) (p : Path) : Prop :=
  ∃ place, t.resolve p = .ok place ∧ t.entry? place ≠ some .directory

theorem write_eq_ok_iff {t t' : FileTree} {p : Path} {bytes : List UInt8} :
    t.write p bytes = .ok t' ↔
      ∃ place, t.resolve p = .ok place ∧ t.entry? place ≠ some .directory ∧
        t' = t.set place (.file bytes) := by
  unfold write
  cases hresolve : t.resolve p with
  | error f =>
    constructor
    · intro h
      cases h
    · rintro ⟨_, hplace, -⟩
      cases hplace
  | ok place =>
    dsimp only [bind, Except.bind]
    split
    · next hentry =>
      constructor
      · intro h
        cases h
      · rintro ⟨_, hplace, hne, -⟩
        cases hplace
        exact absurd hentry hne
    · next hentry =>
      constructor
      · intro h
        cases h
        exact ⟨place, rfl, hentry, rfl⟩
      · rintro ⟨_, hplace, -, rfl⟩
        cases hplace
        rfl

theorem write_of_writable {t : FileTree} {p : Path} (h : t.Writable p) (bytes : List UInt8) :
    ∃ t', t.write p bytes = .ok t' := by
  obtain ⟨place, hresolve, hentry⟩ := h
  exact ⟨_, write_eq_ok_iff.2 ⟨place, hresolve, hentry, rfl⟩⟩

/-! ## Trees that differ in one file -/

/-- The second tree has a file where the path leads to, and is as the first one elsewhere. -/
def Alters (t : FileTree) (p : Path) (t' : FileTree) : Prop :=
  ∃ place, t.resolve p = .ok place ∧
    (∃ bytes, t'.entry? place = some (.file bytes)) ∧
    ∀ place', place' ≠ place → t'.entry? place' = t.entry? place'

/-- A place that is not a directory is not one that is always one. -/
theorem isFixed_eq_false {t : FileTree} {place : List String}
    (h : t.entry? place ≠ some .directory) : isFixed place = false := by
  rw [Bool.eq_false_iff]
  intro hfixed
  unfold entry? at h
  rw [if_pos hfixed] at h
  exact h rfl

theorem entry?_set_self {t : FileTree} {place : List String} (entry : FileEntry)
    (h : t.entry? place ≠ some .directory) :
    FileTree.entry? (t.set place entry) place = some entry := by
  unfold entry? set
  rw [isFixed_eq_false h, if_neg Bool.false_ne_true, lookup_setEntry, if_pos rfl]

theorem alters_of_write {t t' : FileTree} {p : Path} {bytes : List UInt8}
    (h : t.write p bytes = .ok t') : t.Alters p t' := by
  obtain ⟨place, hresolve, hentry, rfl⟩ := write_eq_ok_iff.1 h
  exact ⟨place, hresolve, ⟨bytes, entry?_set_self _ hentry⟩,
    fun place' hne => entry?_set_of_ne t _ hne⟩

end ThreeAddress.FileTree
