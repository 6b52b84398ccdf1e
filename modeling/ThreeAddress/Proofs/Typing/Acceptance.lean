import ThreeAddress.Proofs.Compilation.Stages
import ThreeAddress.Proofs.Typing.Decision

/-!
# The check accepts what obeys the rule

The check works with a table that grows, and the typing rule speaks of the whole program and one
table. For a program that is read from a text the two come to the same: the types that it declares
are those of the language (`Reads.type_ne_unknown`), so the check has nothing to say about results.

**Theorem (`typecheck_iff_obeys`).** The check of a program succeeds with a table iff the program
obeys the rule under it. Then its notices are those on integers that go into float variables.
-/

namespace ThreeAddress

/-! ## Declared types -/

/-- What is declared in a tree is declared by one of its nodes. -/
theorem Node.assign_of_declare {n : Node} {name : String} {type : Ty}
    (h : .declare name type ∈ n.occurrences) :
    ∃ value l, .assign name value (some type) l ∈ n.parts := by
  induction n with
  | assign x value declares l ih =>
    rw [occurrences, List.mem_append, List.mem_append] at h
    rcases h with h | h | h
    · obtain ⟨value', l', hmem⟩ := ih h
      exact ⟨value', l', List.mem_cons_of_mem _ hmem⟩
    · cases declares with
      | none => exact absurd h List.not_mem_nil
      | some declared =>
        cases List.mem_singleton.1 h
        exact ⟨value, l, List.mem_cons_self⟩
    · cases List.mem_singleton.1 h
  | block ss l ih =>
    obtain ⟨s, hs, hmem⟩ := mem_occurrencesAll.1 h
    obtain ⟨value, l', hassign⟩ := ih s hs hmem
    exact ⟨value, l', List.mem_cons_of_mem _ (mem_partsAll.2 ⟨s, hs, hassign⟩)⟩
  | binary _ _ _ _ ih ih' | ifThen _ _ _ ih ih' | whileLoop _ _ _ ih ih' =>
    simp only [occurrences, List.mem_append] at h
    simp only [parts, List.mem_cons, List.mem_append, reduceCtorEq, false_or, exists_or]
    exact h.imp ih ih'
  | ifElse _ _ _ _ ihc iht ihe =>
    simp only [occurrences, List.mem_append] at h
    simp only [parts, List.mem_cons, List.mem_append, reduceCtorEq, false_or, exists_or]
    exact h.imp ihc (.imp iht ihe)
  | forLoop _ _ _ _ _ ihi ihc ihu ihb =>
    simp only [occurrences, List.mem_append] at h
    simp only [parts, List.mem_cons, List.mem_append, reduceCtorEq, false_or, exists_or]
    exact h.imp ihi (.imp ihc (.imp ihu ihb))
  | retValue value l ih =>
    obtain ⟨value', l', hmem⟩ := ih h
    exact ⟨value', l', List.mem_cons_of_mem _ hmem⟩
  | int | float | string | ret | bare => exact absurd h List.not_mem_nil
  | var => cases List.mem_singleton.1 h

section Programs

open Typing Symbols

variable {source file : String} {program : List Node}

/-- The declared types of a program are those of the language. -/
theorem Reads.type_ne_unknown (h : Reads source file program) {name : String} {type : Ty}
    (hdeclare : (name, type) ∈ declarations (Node.occurrencesAll program)) : type ≠ .unknown := by
  obtain ⟨s, hs, hmem⟩ := Node.mem_occurrencesAll.1 (mem_declarations.1 hdeclare)
  obtain ⟨value, l, hassign⟩ := Node.assign_of_declare hmem
  obtain ⟨t, -, hlexical, hstems⟩ := h.exists_stem _ (Node.mem_partsAll.2 ⟨s, hs, hassign⟩)
  obtain ⟨htype, rfl⟩ := hstems.declares rfl
  exact ne_of_mem_of_not_mem (hlexical.ofName_mem htype) (by decide)

/-! ## Acceptance -/

variable {lines : List String} {notices : List Notice} {G : String → Option Ty}

/-- An expression whose variables have known types has one. -/
theorem Typing.known_of_use {e : Node} (he : e.IsExpression)
    (h : ∀ x, .use x ∈ e.occurrences → ∃ type, G x = some type ∧ type ≠ .unknown) :
    ∃ type, e.typeUnder G = some type ∧ type ≠ .unknown := by
  cases he with
  | int | float | string => exact ⟨_, rfl, nofun⟩
  | @var name l => exact h name (List.mem_singleton.2 rfl)
  | binary =>
    refine ⟨_, rfl, ?_⟩
    split_ifs <;> exact nofun

/-- What a program obeys can be said of its nodes and of the table that its occurrences lead to. -/
theorem Reads.obeys_iff (h : Reads source file program) : Obeys G program ↔
    ({} : Symbols).Admits (Node.occurrencesAll program) ∧
      (({} : Symbols).after (Node.occurrencesAll program)).find? = G ∧
      ∀ s ∈ program, WellTyped G s := by
  have hadmits : ({} : Symbols).Admits (Node.occurrencesAll program) ↔
      ((declarations (Node.occurrencesAll program)).map Prod.fst).Nodup ∧
      ∀ before name after, Node.occurrencesAll program = before ++ .use name :: after →
        ∃ type, (name, type) ∈ declarations before := by
    rw [admits_iff]
    refine (and_iff_right fun _ _ => rfl).trans (and_congr_right fun _ => ?_)
    refine forall₃_congr fun before name after => ?_
    exact imp_congr_right fun _ => or_iff_right fun hne => hne rfl
  constructor
  · rintro ⟨honce, htable, hordered, hsound⟩
    have hos := hadmits.2 ⟨honce, hordered⟩
    refine ⟨hos, funext fun name => Option.ext fun type => ?_, fun s hs m hm => ⟨?_, ?_⟩⟩
    · exact hos.find?_eq.trans (htable name type).symm
    · exact hsound m (Node.mem_partsAll.2 ⟨s, hs, hm⟩)
    · cases m with
      | retValue value l =>
        refine known_of_use ?_ fun x hx => ?_
        · rcases (h.isStatement s hs).parts _ hm with he | hstatement
          · cases he
          · cases hstatement with
            | retValue he => exact he
        · have hmem : .use x ∈ Node.occurrencesAll program :=
            Node.mem_occurrencesAll.2 ⟨s, hs, Node.occurrences_subset hm hx⟩
          obtain ⟨before, after, hsplit⟩ := List.append_of_mem hmem
          obtain ⟨type, htype⟩ := hordered before x after hsplit
          have hdeclared : (x, type) ∈ declarations (Node.occurrencesAll program) := by
            rw [hsplit, declarations_append]
            exact List.mem_append_left _ htype
          exact ⟨type, (htable x type).2 hdeclared, h.type_ne_unknown hdeclared⟩
      | assign | binary | int | float | string | var | ifThen | ifElse | forLoop | whileLoop | ret
      | block | bare => exact trivial
  · rintro ⟨hos, rfl, hwell⟩
    obtain ⟨honce, hordered⟩ := hadmits.1 hos
    refine ⟨honce, fun name type => hos.find?_eq, hordered, fun n hn => ?_⟩
    obtain ⟨s, hs, hmem⟩ := Node.mem_partsAll.1 hn
    exact (hwell s hs n hmem).1

/-- The check of a program, in one step. -/
theorem typecheck_meets (h : ∀ s ∈ program, s.IsStatement) (lines : List String)
    (notices : List Notice) :
    Meets (typecheck lines program) notices
      (fun symbols after => ({} : Symbols).Admits (Node.occurrencesAll program) ∧
        symbols = ({} : Symbols).after (Node.occurrencesAll program) ∧
        (∀ s ∈ program, WellTyped symbols.find? s) ∧
        after = notices ++ widenings symbols.find? program)
      fun _ _ => ¬ (({} : Symbols).Admits (Node.occurrencesAll program) ∧
        ∀ s ∈ program,
          WellTyped (({} : Symbols).after (Node.occurrencesAll program)).find? s) := by
  have hchecks : ∀ s ∈ program,
      Decides (check lines s) s.occurrences (WellTyped · s) (widenedIn · s) :=
    fun s hs => check_decides (h s hs)
  have hmeets := (checkAll_decides hchecks).run { notices }
  cases hcheck : checkAll lines program { notices } with
  | ok u st =>
    have hok : typecheck lines program notices = .ok st.symbols st.notices := by
      unfold typecheck tabulate run
      rw [hcheck]
    exact .ok hok (hmeets.of_ok hcheck)
  | error e st =>
    have herror : typecheck lines program notices = .error e st.notices := by
      unfold typecheck tabulate run
      rw [hcheck]
    exact .error herror (hmeets.of_error hcheck)

/-- **The check accepts a program with a table** iff the program obeys the typing rule under it.
Then the table has the variables in the order of their declarations, and the notices are those on
integers that go into float variables. -/
theorem typecheck_iff_obeys (hreads : Reads source file program) (lines : List String)
    (notices : List Notice) :
    (∀ G, (∃ symbols after, typecheck lines program notices = .ok symbols after ∧
      symbols.find? = G) ↔ Obeys G program) ∧
    ∀ symbols after, typecheck lines program notices = .ok symbols after →
      symbols.entries = declarations (Node.occurrencesAll program) ∧
      after = notices ++ widenings symbols.find? program ∧
      ∀ n ∈ widenings symbols.find? program, n.level = .info := by
  have hmeets := typecheck_meets hreads.isStatement lines notices
  refine ⟨fun G => ?_, fun symbols after hok => ?_⟩
  · rw [hreads.obeys_iff]
    constructor
    · rintro ⟨symbols, after, hok, rfl⟩
      obtain ⟨hos, rfl, hwell, -⟩ := hmeets.of_ok hok
      exact ⟨hos, rfl, hwell⟩
    · rintro ⟨hos, rfl, hwell⟩
      cases hcheck : typecheck lines program notices with
      | ok symbols after =>
        obtain ⟨-, rfl, -⟩ := hmeets.of_ok hcheck
        exact ⟨_, after, rfl, rfl⟩
      | error e after => exact absurd ⟨hos, hwell⟩ (hmeets.of_error hcheck)
  · obtain ⟨hos, rfl, -, rfl⟩ := hmeets.of_ok hok
    refine ⟨hos.entries, rfl, fun n hn => ?_⟩
    obtain ⟨m, -, hm⟩ := List.mem_filterMap.1 hn
    exact level_of_widening? hm

end Programs

/-- An integer variable that goes into a float variable. -/
theorem widenedCopy_accepted :
    ∃ program symbols before after, Reads "int x = 1; float y = x;" "a" program ∧
      typecheck (Text.lines "int x = 1; float y = x;") program before = .ok symbols after ∧
      Typing.Obeys symbols.find? program ∧
      after = before ++ Typing.widenings symbols.find? program ∧
      after.map Notice.text = ["implicit widening: assigning int to float variable 'y'"] := by
  have htold : (match (parseSource "int x = 1; float y = x;" "a" >>=
        typecheck (Text.lines "int x = 1; float y = x;")) [] with
      | .ok _ after => after.map Notice.text
      | .error _ _ => []) =
        ["implicit widening: assigning int to float variable 'y'"] := by
    decide +kernel
  split at htold
  · next symbols after hrun =>
    obtain ⟨program, before, hread, hcheck⟩ := bind_eq_ok_iff.1 hrun
    have hreads := ((parseSource_meets _ _ _).of_ok hread).1
    obtain ⟨haccepts, htable⟩ := typecheck_iff_obeys hreads
      (Text.lines "int x = 1; float y = x;") before
    exact ⟨program, symbols, before, after, hreads, hcheck,
      (haccepts _).1 ⟨symbols, after, hcheck, rfl⟩, (htable _ _ hcheck).2.1, htold⟩
  · cases htold

end ThreeAddress
