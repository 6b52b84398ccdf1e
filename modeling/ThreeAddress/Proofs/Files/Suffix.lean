import Mathlib.Data.List.Basic
import Mathlib.Tactic.SplitIfs
import ThreeAddress.Proofs.Files.Writing

/-!
# A file next to another

Where a path leads to whose last part has got another suffix. It leads into the same directory, so
it leads to the same place only if the last part has not changed, that is, if the path had the
suffix before.

* `Path.HasSuffix`: the last part of the path ends in the suffix, behind at least one character.
* `Path.withSuffix_eq_self_iff`: the paths that a new suffix does not change.
* `FileTree.withSuffix_eq_self_of_resolve`: a path that a new suffix changes leads elsewhere with it.
-/

namespace ThreeAddress

namespace Path

/-! ## Suffixes -/

/-- The last part of the path ends in the suffix, behind at least one character. -/
def HasSuffix (p : Path) (suffix : String) : Prop :=
  ∃ base, base ≠ [] ∧ p.name.toList = base ++ suffix.toList

/-- What stands before the last dot is the name without its suffix. -/
theorem stem_append {base ending : List Char} (hbase : base ≠ []) (hending : ending ≠ [])
    (hdot : '.' ∉ ending) : stem (base ++ '.' :: ending) = base := by
  have hreverse : (base ++ '.' :: ending).reverse = ending.reverse ++ '.' :: base.reverse := by
    simp
  have hrun : ∀ c ∈ ending.reverse, decide (c ≠ '.') = true := by
    intro c hc
    refine decide_eq_true ?_
    rintro rfl
    exact hdot (List.mem_reverse.1 hc)
  have htake : (base ++ '.' :: ending).reverse.takeWhile (· ≠ '.') = ending.reverse := by
    rw [hreverse, List.takeWhile_append_of_pos hrun]
    simp
  have hdrop : (base ++ '.' :: ending).reverse.dropWhile (· ≠ '.') = '.' :: base.reverse := by
    rw [hreverse, List.dropWhile_append_of_pos hrun]
    simp
  unfold stem
  simp only [htake, hdrop]
  simp [hbase, hending]

theorem stem_ne_nil {name : List Char} (h : name ≠ []) : stem name ≠ [] := by
  unfold stem
  dsimp only
  split
  · exact h
  · next hwhole =>
    intro hbefore
    rw [List.reverse_eq_nil_iff] at hbefore
    rw [hbefore] at hwhole
    simp at hwhole

variable {p : Path} {suffix : String} {ending : List Char}

theorem name_withSuffix :
    (p.withSuffix suffix).name = String.ofList (stem p.name.toList) ++ suffix := by
  simp [withSuffix, name]

/-- **The paths that a new suffix does not change** are those that have it. -/
theorem withSuffix_eq_self_iff (hsuffix : suffix.toList = '.' :: ending) (hending : ending ≠ [])
    (hdot : '.' ∉ ending) : p.withSuffix suffix = p ↔ p.HasSuffix suffix := by
  constructor
  · intro h
    have hname : (String.ofList (stem p.name.toList) ++ suffix).toList = p.name.toList := by
      rw [← name_withSuffix, h]
    rw [String.toList_append, String.toList_ofList] at hname
    refine ⟨stem p.name.toList, fun hstem => ?_, hname.symm⟩
    rw [hstem, List.nil_append] at hname
    exact stem_ne_nil (by rw [← hname, hsuffix]; exact List.cons_ne_nil _ _) hstem
  · rintro ⟨base, hbase, hname⟩
    have hstem : stem p.name.toList = base := by
      rw [hname, hsuffix]
      exact stem_append hbase hending hdot
    have hlast : String.ofList (stem p.name.toList) ++ suffix = p.name := by
      rw [← String.toList_inj, hstem, hname, String.toList_append, String.toList_ofList]
    have hparts : p.parts ≠ [] := by
      intro hparts
      rw [name, hparts] at hname
      simp [hsuffix] at hname
    unfold withSuffix
    rw [hlast, name, List.getLast?_eq_some_getLast hparts, Option.getD_some,
      List.dropLast_concat_getLast hparts]

end Path

namespace FileTree

/-! ## Places -/

variable {t : FileTree} {p : Path} {place place' : List String} {suffix : String}
  {ending : List Char}

theorem resolveFrom_append (t : FileTree) (place : List String) (parts more : List String) :
    t.resolveFrom place (parts ++ more) =
      (t.resolveFrom place parts).bind fun place' => t.resolveFrom place' more := by
  induction parts generalizing place with
  | nil => rfl
  | cons part parts ih =>
    rw [List.cons_append, resolveFrom, resolveFrom]
    split
    · rfl
    · rfl
    · split_ifs
      · exact ih _
      · rfl
      · exact ih _

theorem resolveFrom_singleton {part : String} (h : t.resolveFrom place [part] = .ok place') :
    place' = if part = ".." then parent place else place ++ [part] := by
  rw [resolveFrom] at h
  split at h
  · cases h
  · cases h
  · split_ifs at h ⊢ <;> cases h <;> rfl

/-- Going up never leads one step further down, but by a double dot. -/
theorem eq_of_parent_eq {part : String} (h : parent place = place ++ [part]) : part = ".." := by
  unfold parent at h
  split at h
  · next hnil =>
    rw [List.getLast?_eq_none_iff.1 hnil] at h
    exact (List.singleton_inj.1 h).symm
  · split_ifs at h
    · exact (List.singleton_inj.1 (List.append_cancel_left h)).symm
    · exact absurd (congrArg List.length h) (by simp)
    · exact absurd (congrArg List.length h) (by simp)

/-- **A path that a new suffix changes leads elsewhere with it**, if it leads to a file. -/
theorem withSuffix_eq_self_of_resolve (hsuffix : suffix.toList = '.' :: ending)
    (hending : ending ≠ []) (hdot : '.' ∉ ending) (hplace : t.resolve p = .ok place)
    (hfile : t.entry? place ≠ some .directory)
    (hsame : t.resolve (p.withSuffix suffix) = .ok place) : p.withSuffix suffix = p := by
  obtain ⟨parts⟩ := p
  unfold resolve at hplace hsame
  split_ifs at hplace hsame
  rcases parts.eq_nil_or_concat' with rfl | ⟨front, last, rfl⟩
  · cases hplace
    exact absurd (if_pos rfl) hfile
  · have hpath : Path.withSuffix ⟨front ++ [last]⟩ suffix =
        ⟨front ++ [String.ofList (Path.stem last.toList) ++ suffix]⟩ := by
      simp [Path.withSuffix, Path.name]
    rw [hpath] at hsame ⊢
    generalize hnew : String.ofList (Path.stem last.toList) ++ suffix = new at hsame
    have hne : new ≠ ".." := by
      rintro rfl
      obtain ⟨c, hc⟩ := List.exists_mem_of_ne_nil _ hending
      have hmem : c ∈ (String.ofList (Path.stem last.toList) ++ suffix).toList := by
        simp [hsuffix, hc]
      rw [hnew] at hmem
      obtain rfl : c = '.' := by simpa using hmem
      exact hdot hc
    dsimp only at hplace hsame
    rw [resolveFrom_append] at hplace hsame
    cases hfront : t.resolveFrom [] front with
    | error f =>
      rw [hfront] at hplace
      cases hplace
    | ok directory =>
      rw [hfront] at hplace hsame
      have hold := resolveFrom_singleton hplace
      have hbelow := resolveFrom_singleton hsame
      rw [if_neg hne] at hbelow
      split_ifs at hold
      · exact absurd (eq_of_parent_eq (hold.symm.trans hbelow)) hne
      · rw [hbelow] at hold
        rw [List.singleton_inj.1 (List.append_cancel_left hold)]

end FileTree

end ThreeAddress
