import ThreeAddress.Proofs.Compilation.Reparsing
import ThreeAddress.Proofs.Compilation.Spelled
import ThreeAddress.Proofs.Folding.Places
import ThreeAddress.Proofs.Number.Comparison
import ThreeAddress.Proofs.Tree.Inline

/-!
# Statements in one line

**Theorem** (`same_of_inline_eq`): statements of source texts, folded or not, with the same one-line
form are equal up to places.

* `Reads.legible`, `Reads.noNaN`: the trees that are read are legible, and no float in them is a
  NaN.
* `StatementOf`: the statements that come from a source text.
* `StatementOf.legible`: they are legible. Folding puts in numbers only.

A NaN is not equal to itself, so a statement that holds one is not equal to itself either, although
its form determines it. Folding can make a NaN, of infinities.
-/

namespace ThreeAddress

open Node

/-! ## What is read -/

section Reads

variable {source file : String} {program : List Node}

/-- A variable is declared with a type of the language. -/
theorem Reads.declaresKnown (h : Reads source file program) :
    ∀ m ∈ partsAll program, m.DeclaresKnown := by
  intro m hm
  obtain ⟨t, -, hlexical, hstems⟩ := h.exists_stem m hm
  cases m with
  | assign name value declares l =>
    intro type htype
    cases htype
    obtain ⟨htype, rfl⟩ := hstems.declares rfl
    exact hlexical.ofName_mem htype
  | _ => trivial

/-- **What is read is legible.** -/
theorem Reads.legible (h : Reads source file program) : ∀ s ∈ program, s.LegibleStatement :=
  fun s hs => (h.isStatement s hs).legible (h.allSpelled s hs) fun m hm =>
    h.declaresKnown m (mem_partsAll.2 ⟨s, hs, hm⟩)

end Reads

/-! ## Floats that are equal to themselves -/

namespace Node

/-- No float of the tree is a NaN. -/
def NoNaN (n : Node) : Prop := ∀ x l, .float x l ∈ n.parts → x.isNaN = false

end Node

/-- No text that stands for a float in a source text stands for a NaN. -/
theorem Reads.noNaN {source file : String} {program : List Node}
    (h : Reads source file program) : ∀ s ∈ program, s.NoNaN := by
  intro s hs x l hx
  obtain ⟨t, -, ht, hstems⟩ := h.exists_stem _ (mem_partsAll.2 ⟨s, hs, hx⟩)
  obtain ⟨hk, hread⟩ := hstems.stands ht
  have hspelling := ht.spelling (.inr hk)
  rw [hk] at hspelling
  obtain ⟨whole, fraction, htext, hne, hwhole, hfraction⟩ := hspelling.point
  obtain ⟨ds, hds, -⟩ := Literal.mapM_digitValue? hwhole
  obtain ⟨es, hes, -⟩ := Literal.mapM_digitValue? hfraction
  rw [htext, Literal.readFloat?_eq hds hes hne] at hread
  cases hread
  exact Literal.isNaN_nearest _ _

namespace Node

theorem NoNaN.of_subset {m n : Node} (h : n.NoNaN) (hsub : m.parts ⊆ n.parts) : m.NoNaN :=
  fun x l hx => h x l (hsub hx)

theorem sameAll_self {ss : List Node} (h : ∀ s ∈ ss, s.same s = true) : sameAll ss ss = true := by
  induction ss with
  | nil => rfl
  | cons s ss ih =>
    obtain ⟨hs, hss⟩ := List.forall_mem_cons.1 h
    rw [sameAll, hs, ih hss]
    rfl

/-- A tree without a NaN is equal to itself. -/
theorem same_self {n : Node} (h : n.NoNaN) : n.same n = true := by
  induction n with
  | int | string | var => exact decide_eq_true rfl
  | ret | bare => rfl
  | float x l => exact beq_self_iff.2 (h x l List.mem_cons_self)
  | assign name value declares l ih => simp [same, ih (h.of_subset (by grind))]
  | retValue value l ih => simp [same, ih (h.of_subset (by grind))]
  | binary left op right l ihl ihr =>
    simp [same, ihl (h.of_subset (by grind)), ihr (h.of_subset (by grind))]
  | ifThen condition thenBranch l ihc iht =>
    simp [same, ihc (h.of_subset (by grind)), iht (h.of_subset (by grind))]
  | ifElse condition thenBranch elseBranch l ihc iht ihe =>
    simp [same, ihc (h.of_subset (by grind)), iht (h.of_subset (by grind)),
      ihe (h.of_subset (by grind))]
  | forLoop init condition update body l ihi ihc ihu ihb =>
    simp [same, ihi (h.of_subset (by grind)), ihc (h.of_subset (by grind)),
      ihu (h.of_subset (by grind)), ihb (h.of_subset (by grind))]
  | whileLoop condition body l ihc ihb =>
    simp [same, ihc (h.of_subset (by grind)), ihb (h.of_subset (by grind))]
  | block ss l ih =>
    refine sameAll_self fun s hs => ih s hs (h.of_subset fun m hm => ?_)
    exact List.mem_cons_of_mem _ (mem_partsAll.2 ⟨s, hs, hm⟩)

/-- **Trees that are equal without their places are the same** if they hold no NaN. -/
theorem same_of_unplaced_eq {s t : Node} (hs : s.NoNaN) (h : s.unplaced = t.unplaced) :
    s.same t = true := by
  rw [← same_mapPlaces (fun _ => none) s t, ← unplaced, ← h, unplaced, same_mapPlaces, same_self hs]

theorem sameAll_of_unplaced_eq {ss ts : List Node} (hss : ∀ s ∈ ss, s.NoNaN)
    (h : ss.map unplaced = ts.map unplaced) : sameAll ss ts = true := by
  rw [← sameAll_of_unplaced h, sameAll_self fun s hs => same_self (hss s hs)]

end Node

/-! ## Statements of a source text -/

/-- Each tree of a folded program is one of the program, folded. -/
theorem Folding.foldAll_each (ss : List Node) (notices : List Notice) :
    Meets (foldAll ss) notices (fun ss' _ => ∀ s' ∈ ss', ∃ s ∈ ss, ∃ t t', fold s t = .ok s' t')
      fun _ _ => True := by
  induction ss generalizing notices with
  | nil => exact .pure fun _ hs => absurd hs List.not_mem_nil
  | cons s ss ih =>
    rw [foldAll]
    refine (fold_folds s notices).andThen ?_ fun _ _ h => h
    rintro s' t' ⟨told, hs, -⟩
    refine (ih t').andThen (fun ss' _ hss => .pure (List.forall_mem_cons.2 ⟨?_, fun u hu => ?_⟩))
      fun _ _ h => h
    · exact ⟨s, List.mem_cons_self, notices, _, hs.fold_eq notices⟩
    · obtain ⟨n, hn, hfold⟩ := hss u hu
      exact ⟨n, List.mem_cons_of_mem _ hn, hfold⟩

/-- The statements that come from a source text: those that are read, and those that folding makes
of them. -/
inductive StatementOf (source file : String) : Node → Prop
  | read {program : List Node} {s : Node} :
      (parseSource source file).run.1 = .ok program → s ∈ partsAll program → s.IsStatement →
      StatementOf source file s
  | folded {n n' s : Node} {notices notices' : List Notice} :
      StatementOf source file n → Folding.fold n notices = .ok n' notices' → s ∈ n'.parts →
      s.IsStatement → StatementOf source file s

namespace StatementOf

variable {source file source' file' : String} {s s' : Node}

theorem spelled (h : StatementOf source file s) :
    s.IsStatement ∧ s.AllSpelled ∧ ∀ m ∈ s.parts, m.DeclaresKnown := by
  induction h with
  | @read program s hparse hs hstatement =>
    have hreads : Reads source file program := parseSource_eq_ok_iff.1 hparse
    refine ⟨hstatement, ?_, fun m hm => hreads.declaresKnown m (parts_subset_partsAll hs hm)⟩
    obtain ⟨t, ht, hs⟩ := mem_partsAll.1 hs
    exact fun m hm => hreads.allSpelled t ht m (parts_subset hs hm)
  | @folded n n' s notices notices' hn hfold hs hstatement ih =>
    obtain ⟨-, hspelled, hdeclares⟩ := ih
    have hspelled' : n'.AllSpelled := (Folding.fold_spells n hspelled notices).of_ok hfold
    refine ⟨hstatement, fun m hm => hspelled' m (parts_subset hs hm), fun m hm => ?_⟩
    obtain ⟨told, hfolds, -⟩ := (Folding.fold_folds n notices).of_ok hfold
    obtain ⟨k, hk, hkeeps⟩ := hfolds.keeps.parts m (parts_subset hs hm)
    cases hkeeps with
    | same => exact hdeclares _ hk
    | literal hnumeral _ =>
      cases m with
      | assign => cases hnumeral
      | _ => trivial
    | _ => trivial

theorem legible (h : StatementOf source file s) : s.LegibleStatement :=
  have ⟨hstatement, hspelled, hdeclares⟩ := h.spelled
  hstatement.legible hspelled hdeclares

/-- **The statements of a folded program** come from the source text, too. -/
theorem of_foldAll {program program' : List Node} {notices notices' : List Notice}
    (h : (parseSource source file).run.1 = .ok program)
    (hfold : Folding.foldAll program notices = .ok program' notices')
    (hs : s ∈ partsAll program') (hstatement : s.IsStatement) : StatementOf source file s := by
  have hreads : Reads source file program := parseSource_eq_ok_iff.1 h
  obtain ⟨n', hn', hs⟩ := mem_partsAll.1 hs
  obtain ⟨n, hn, t, t', hfold⟩ := (Folding.foldAll_each program notices).of_ok hfold n' hn'
  have hread : StatementOf source file n :=
    .read h (mem_partsAll.2 ⟨n, hn, n.mem_parts_self⟩) (hreads.isStatement n hn)
  exact .folded hread hfold hs hstatement

end StatementOf

/-- The statements that code is generated for come from the source text. -/
theorem Passes.statementOf {options : Options} {source file : String} {c : Compilation}
    (h : Passes options source file c) : ∀ s ∈ c.optimized, StatementOf source file s := by
  intro s hs
  have hstatement := (h.regular s hs).isStatement
  have hpart := mem_partsAll.2 ⟨s, hs, s.mem_parts_self⟩
  have hparse : (parseSource source file).run.1 = .ok c.program := parseSource_eq_ok_iff.2 h.reads
  have hoptimizes := h.optimizes
  generalize options.fold = fold at hoptimizes
  generalize c.program = program at hparse hoptimizes
  generalize c.optimized = optimized at hpart hoptimizes
  cases hoptimizes with
  | kept => exact .read hparse hpart hstatement
  | folded hfold => exact .of_foldAll hparse hfold hpart hstatement

/-- **The one-line form of a statement is unambiguous.** -/
theorem same_of_inline_eq {source source' file file' : String} {s s' : Node}
    (h : StatementOf source file s) (h' : StatementOf source' file' s')
    (hinline : s.inline = s'.inline) :
    s.unplaced = s'.unplaced ∧ (s.NoNaN → s.same s' = true) := by
  have hunplaced : s.unplaced = s'.unplaced :=
    (h.legible.aligns_inline h'.legible).of_eq (congrArg String.toList hinline)
  exact ⟨hunplaced, fun hs => same_of_unplaced_eq hs hunplaced⟩

/-- A comparison with a string that imitates the rest of a form. -/
def comparedText : String := "return \"3)), else=None)\" == 3;"

/-- The same comparison, with a sum to be folded. -/
def comparedSum : String := "return \"3)), else=None)\" == (1 + 2);"

theorem comparedSum_same :
    ∃ s s', StatementOf comparedText "a" s ∧ StatementOf comparedSum "b" s' ∧
      s.inline = "ReturnNode(value=BinOpNode(\"3)), else=None)\" == 3))" ∧
      s'.inline = "ReturnNode(value=BinOpNode(\"3)), else=None)\" == 3))" ∧
      s.unplaced = s'.unplaced ∧ s.NoNaN ∧ s.same s' = true := by
  obtain ⟨program, hparse⟩ :=
    exists_of_isOk (r := (parseSource comparedText "a").run.1) (by decide +kernel)
  obtain ⟨c, hc⟩ := exists_of_isOk
    (r := (compile { analyze := false } comparedSum "b").run.1) (by decide +kernel)
  have hread : (parseSource comparedText "a").run.1.toOption.map inlineAll =
      some ["ReturnNode(value=BinOpNode(\"3)), else=None)\" == 3))"] := by
    decide +kernel
  have hfolded : (compile { analyze := false } comparedSum "b").run.1.toOption.map
      (inlineAll ·.optimized) =
      some ["ReturnNode(value=BinOpNode(\"3)), else=None)\" == 3))"] := by
    decide +kernel
  rw [hparse] at hread
  rw [hc] at hfolded
  have hforms : inlineAll program = _ := Option.some.inj hread
  have hforms' : inlineAll c.optimized = _ := Option.some.inj hfolded
  rw [inlineAll_eq_map, List.map_eq_singleton_iff] at hforms hforms'
  obtain ⟨s, rfl, hs⟩ := hforms
  obtain ⟨s', hoptimized, hs'⟩ := hforms'
  have hreads : Reads comparedText "a" [s] := parseSource_eq_ok_iff.1 hparse
  have hself : s ∈ [s] := List.mem_singleton.2 rfl
  have hfirst : StatementOf comparedText "a" s :=
    .read hparse (mem_partsAll.2 ⟨s, hself, s.mem_parts_self⟩) (hreads.isStatement s hself)
  have hsecond : StatementOf comparedSum "b" s' :=
    (passes_of_compile hc).statementOf s' (hoptimized ▸ List.mem_singleton.2 rfl)
  have hNaN : s.NoNaN := hreads.noNaN s hself
  obtain ⟨hunplaced, hsame⟩ := same_of_inline_eq hfirst hsecond (hs.trans hs'.symm)
  exact ⟨s, s', hfirst, hsecond, hs, hs', hunplaced, hNaN, hsame hNaN⟩

end ThreeAddress
