import Mathlib.Data.List.Nodup
import ThreeAddress.Proofs.Typing.Rule

/-!
# Tables that grow

A walk along the occurrences of variables, with a table that starts somewhere and takes in each
declaration.

* `Symbols.after`: the table at the end of the walk.
* `Symbols.Admits`: each occurrence is allowed where it stands; a variable that is used is in the
  table, and one that is declared is not.

**Theorem (`admits_iff`).** The occurrences are admitted iff no variable is declared twice, or again,
and each is used behind its declaration. Then the table at the end is the list of declarations
(`Admits.entries`), and it agrees with every later table on what has been used (`Admits.agreeOn`).
-/

namespace ThreeAddress

namespace Symbols

/-- The table with the variables that are declared. -/
def after (s : Symbols) : List Occurrence → Symbols
  | [] => s
  | .use _ :: os => s.after os
  | .declare name type :: os => (s.set name type).after os

/-- What is used is in the table, and what is declared is not. -/
def Admits (s : Symbols) : List Occurrence → Prop
  | [] => True
  | .use name :: os => s.find? name ≠ none ∧ s.Admits os
  | .declare name type :: os => s.find? name = none ∧ (s.set name type).Admits os

variable {s s' : Symbols} {os os' : List Occurrence}

theorem after_append (s : Symbols) (os os' : List Occurrence) :
    s.after (os ++ os') = (s.after os).after os' := by
  induction os generalizing s with
  | nil => rfl
  | cons o os ih => cases o <;> exact ih _

theorem admits_append : s.Admits (os ++ os') ↔ s.Admits os ∧ (s.after os).Admits os' := by
  induction os generalizing s with
  | nil => exact (and_iff_right trivial).symm
  | cons o os ih =>
    cases o with
    | use name => simp only [List.cons_append, Admits, after, ih, and_assoc]
    | declare name type => simp only [List.cons_append, Admits, after, ih, and_assoc]

theorem Admits.extends (h : s.Admits os) : s.Extends (s.after os) := by
  induction os generalizing s with
  | nil => exact .refl s
  | cons o os ih =>
    cases o with
    | use name => exact ih h.2
    | declare name type => exact (Extends.set h.1 type).trans (ih h.2)

/-- What has been used is in every later table with the same type. -/
theorem Admits.agreeOn (h : s.Admits os) (hs : (s.after os).Extends s') :
    AgreeOn os (s.after os).find? s'.find? := by
  induction os generalizing s with
  | nil => exact fun _ hname => absurd hname List.not_mem_nil
  | cons o os ih =>
    cases o with
    | use name =>
      intro x hx
      rcases List.mem_cons.1 hx with hx | hx
      · cases hx
        obtain ⟨type, htype⟩ := Option.ne_none_iff_exists'.1 h.1
        have hlater := h.2.extends _ _ htype
        exact hlater.trans (hs _ _ hlater).symm
      · exact ih h.2 hs x hx
    | declare name type =>
      intro x hx
      exact ih h.2 hs x ((List.mem_cons.1 hx).resolve_left nofun)

/-- What an expression uses is in the table, which stays as it is. -/
theorem admits_of_use (h : ∀ o ∈ os, ∃ x, o = .use x) :
    (s.Admits os ↔ ∀ x, .use x ∈ os → s.find? x ≠ none) ∧ s.after os = s := by
  induction os with
  | nil => exact ⟨⟨fun _ _ hx => absurd hx List.not_mem_nil, fun _ => trivial⟩, rfl⟩
  | cons o os ih =>
    obtain ⟨⟨x, rfl⟩, hos⟩ := List.forall_mem_cons.1 h
    obtain ⟨hadmits, hafter⟩ := ih hos
    refine ⟨?_, hafter⟩
    rw [Admits, hadmits]
    simp only [List.mem_cons, Occurrence.use.injEq]
    constructor
    · rintro ⟨hx, hall⟩ y (rfl | hy)
      · exact hx
      · exact hall y hy
    · exact fun hall => ⟨hall x (.inl rfl), fun y hy => hall y (.inr hy)⟩

/-! ## Entries -/

theorem setEntry_of_lookup {name : String} {type : Ty} {entries : List (String × Ty)}
    (h : entries.lookup name = none) : setEntry name type entries = entries ++ [(name, type)] := by
  induction entries with
  | nil => rfl
  | cons entry rest ih =>
    obtain ⟨n, t⟩ := entry
    rw [List.lookup_cons] at h
    by_cases hn : n = name
    · subst hn
      simp at h
    · have hbeq : (name == n) = false := beq_false_of_ne (Ne.symm hn)
      rw [hbeq] at h
      rw [setEntry, if_neg hn, ih h]
      rfl

/-- The table has the declared variables in the order of their declarations. -/
theorem Admits.entries (h : s.Admits os) :
    (s.after os).entries = s.entries ++ declarations os := by
  induction os generalizing s with
  | nil => exact (List.append_nil _).symm
  | cons o os ih =>
    cases o with
    | use name => exact ih h.2
    | declare name type =>
      have hset : (s.set name type).entries = s.entries ++ [(name, type)] := setEntry_of_lookup h.1
      rw [after, ih h.2, hset, List.append_assoc]
      rfl

/-! ## Declarations and uses -/

theorem find?_set_eq_none {name x : String} {type : Ty} :
    (s.set name type).find? x = none ↔ x ≠ name ∧ s.find? x = none := by
  rw [find?_set]
  split_ifs with hx <;> simp [hx]

/-- **Occurrences are admitted** iff no variable is declared twice and each is used behind its
declaration. -/
theorem admits_iff : s.Admits os ↔
    (∀ d ∈ declarations os, s.find? d.1 = none) ∧ ((declarations os).map Prod.fst).Nodup ∧
      ∀ before name after, os = before ++ .use name :: after →
        s.find? name ≠ none ∨ ∃ type, (name, type) ∈ declarations before := by
  induction os generalizing s with
  | nil => simp [Admits, declarations]
  | cons o os ih =>
    cases o with
    | use x =>
      rw [Admits, ih]
      constructor
      · rintro ⟨hx, hnew, honce, hordered⟩
        refine ⟨hnew, honce, fun before name after h => ?_⟩
        cases before with
        | nil =>
          cases h
          exact .inl hx
        | cons o before =>
          obtain ⟨rfl, hos⟩ := List.cons.inj h
          exact hordered before name after hos
      · rintro ⟨hnew, honce, hordered⟩
        have hx := (hordered [] x os rfl).resolve_right (not_exists.2 fun _ => List.not_mem_nil)
        refine ⟨hx, hnew, honce, fun before name after h => ?_⟩
        exact hordered (.use x :: before) name after (congrArg _ h)
    | declare x type =>
      have hdeclarations : ∀ os, declarations (.declare x type :: os) =
          (x, type) :: declarations os := fun _ => rfl
      rw [Admits, ih, hdeclarations, List.forall_mem_cons, List.map_cons, List.nodup_cons]
      simp only [ne_eq, find?_set_eq_none]
      constructor
      · rintro ⟨hx, hnew, honce, hordered⟩
        refine ⟨⟨hx, fun d hd => (hnew d hd).2⟩, ⟨fun hmem => ?_, honce⟩,
          fun before name after h => ?_⟩
        · obtain ⟨d, hd, hname⟩ := List.mem_map.1 hmem
          exact (hnew d hd).1 hname
        · cases before with
          | nil => cases h
          | cons o before =>
            obtain ⟨rfl, hos⟩ := List.cons.inj h
            rw [hdeclarations]
            by_cases hname : name = x
            · exact .inr ⟨type, hname ▸ List.mem_cons_self⟩
            · refine (hordered before name after hos).imp (fun hfind hnone => ?_) (Exists.imp ?_)
              · exact hfind ⟨hname, hnone⟩
              · exact fun type' hmem => List.mem_cons_of_mem _ hmem
      · rintro ⟨⟨hx, hnew⟩, ⟨hfresh, honce⟩, hordered⟩
        refine ⟨hx, fun d hd => ⟨fun hname => ?_, hnew d hd⟩, honce, fun before name after h => ?_⟩
        · exact hfresh (List.mem_map.2 ⟨d, hd, hname⟩)
        · have hmem := hordered (.declare x type :: before) name after (congrArg _ h)
          rw [hdeclarations] at hmem
          by_cases hname : name = x
          · exact .inl fun hnone => hnone.1 hname
          · refine hmem.imp (fun hfind hnone => hfind hnone.2) (Exists.imp fun type' hmem => ?_)
            exact (List.mem_cons.1 hmem).resolve_left fun heq => hname (Prod.mk.inj heq).1

/-- What stands in a table that grows from nothing. -/
theorem Admits.find?_eq (h : ({} : Symbols).Admits os) {name : String} {type : Ty} :
    (({} : Symbols).after os).find? name = some type ↔ (name, type) ∈ declarations os := by
  have honce := (admits_iff.1 h).2.1
  have hentries := h.entries
  rw [List.nil_append] at hentries
  rw [find?, hentries]
  generalize declarations os = entries at honce
  induction entries with
  | nil => simp
  | cons entry rest ih =>
    obtain ⟨n, t⟩ := entry
    rw [List.map_cons, List.nodup_cons] at honce
    rw [List.lookup_cons, List.mem_cons, Prod.mk.injEq]
    by_cases hname : name = n
    · subst hname
      have hnot : (name, type) ∉ rest := fun hmem => honce.1 (List.mem_map.2 ⟨_, hmem, rfl⟩)
      simp [hnot, eq_comm]
    · have hbeq : (name == n) = false := beq_false_of_ne hname
      simp [hbeq, hname, ih honce.2]

end Symbols

end ThreeAddress
