import ThreeAddress.Proofs.Compilation.Spelled
import ThreeAddress.Proofs.Folding.Places
import ThreeAddress.Proofs.Token.Place
import ThreeAddress.Proofs.Typing.Blame

/-!
# Places of trees and problems

The places in a tree lead back to its text: at the place of a node, the token is written that the
node stands for. This is so for the tree that is parsed, folding keeps the places, and a problem of
types or of folding has the place of a node.

* `Node.Points`: a node has the place of the token that it stands for.
* `Reads.points`: the nodes of a program that is read from a text.
* `Stops.blames`: what ends a compilation behind parsing is a problem at a node.

**Theorem (`nodes_located`).** Nodes point to their tokens, also behind folding and in problems, and
a variable is reported as undeclared where its name is written.

A number that folding puts in stands for no token, but it has the place of an operator that does
(`Node.Keeps`).
-/

namespace ThreeAddress

open Token

/-! ## Nodes -/

/-- The node has a place, which is that of a token of the text. The node stands for the token, and
the token is written there. -/
def Node.Points (n : Node) (source file : String) : Prop :=
  ∃ t ∈ (Scan.ofSource source file).tokens, ∃ k, t.WrittenAt file source.toList k ∧
    n.StandsFor t ∧ n.location = t.location

/-- No node stands for a comment that is not closed. -/
theorem Node.StandsFor.word_ne {n : Node} {t : Token} (h : n.StandsFor t) :
    t.word ≠ (.unknown, unclosedComment) := by
  intro hword
  have hk : t.kind = .unknown := congrArg Prod.fst hword
  cases n with
  | assign name value declares l =>
    cases declares with
    | none => cases hk.symm.trans h.1
    | some type =>
      have htype := h.1
      rw [hk] at htype
      cases htype
  | binary left op right l =>
    have hop := h.1
    rw [hk] at hop
    cases hop
  | int | float | string | var | ifThen | ifElse | forLoop | whileLoop | ret | retValue | block =>
    cases hk.symm.trans h.1
  | bare => exact h

/-- A node that refers to a variable stands for its name. -/
theorem Node.Refers.name {n : Node} {t : Token} {name : String} (h : n.Refers name)
    (ht : n.StandsFor t) : t.word = (.identifier, name) := by
  obtain ⟨l, rfl⟩ | ⟨value, l, rfl⟩ := h
  · exact Prod.ext ht.1 ht.2
  · exact Prod.ext ht.1 ht.2

section Located

variable {options : Options} {source file : String} {program : List Node}

/-- **The nodes of a program point to their tokens.** -/
theorem Reads.points (h : Reads source file program) :
    ∀ n ∈ Node.partsAll program, n.Points source file := by
  intro n hn
  obtain ⟨t, ht, hlexical, hstems⟩ := h.exists_stem n hn
  have hstands := hstems.stands hlexical
  obtain ⟨k, hwritten⟩ := Scan.ofSource_writtenAt ht hstands.word_ne
  exact ⟨t, ht, k, hwritten, hstands, hstems.location⟩

/-- What is optimized keeps the places of the program, folded or not. -/
theorem Optimizes.keeps {fold : Bool} {optimized : List Node}
    (h : Optimizes program fold optimized) : List.Forall₂ Node.Keeps program optimized := by
  cases h with
  | kept => exact List.forall₂_same.2 fun _ _ => .same
  | folded hfold => exact (Folding.foldAll_keeps program _).of_ok hfold

/-! ## Problems -/

/-- The problem is one of types or of folding. -/
def Problem.OfProgram (p : Problem) : Prop :=
  Category.semantic ∈ p.cause.category.lineage ∨ Category.folding ∈ p.cause.category.lineage

theorem Problem.OfProgram.not_reading {p : Problem} (h : p.OfProgram) :
    p.cause ≠ .unterminatedString ∧ ¬ Grammar.Misfit p.cause := by
  obtain ⟨cause, l, line⟩ := p
  constructor
  · rintro rfl
    simp [OfProgram, Cause.category, Category.lineage, Category.parent?] at h
  · intro hmisfit
    cases hmisfit <;> simp [OfProgram, Cause.category, Category.lineage, Category.parent?] at h

/-- **A problem of types or of folding** is one at a node of the program. -/
theorem Stops.blames {p : Problem} (h : Stops options source file (.problem p))
    (hp : p.OfProgram) : ∃ program, Reads source file program ∧
      ∃ n ∈ Node.partsAll program, p.location = n.location ∧ p.cause.Suits n := by
  cases h with
  | unread hscan =>
    exact absurd (Scan.upTo_fault (Scan.fault_of_result hscan)) hp.not_reading.1
  | @ungrammatical tokens _ hscan hreject =>
    rcases Grammar.ofTokens_outcome (Grammar.lexical_of_result hscan) (Text.lines source) with
      ⟨ss, hok, -⟩ | ⟨q, herror, hmisfit⟩
    · cases hok.symm.trans hreject
    · cases herror.symm.trans hreject
      exact absurd hmisfit hp.not_reading.2
  | @untyped program _ hreads _ htypes =>
    obtain ⟨n, hn, cause, rfl, hsuits⟩ := Typing.typecheck_blames htypes p rfl
    exact ⟨program, hreads, n, hn, rfl, hsuits⟩
  | @unfolded program _ hreads _ _ hfolding =>
    obtain ⟨left, right, l, a, b, hn, rfl⟩ := hfolding
    exact ⟨program, hreads, _, hn, rfl, .of_ne (by simp [Cause.category])⟩

end Located

/-- **Places lead back to the text**: the places of a tree, those of the tree that it is folded to,
and those of the problems that are found in it. -/
theorem nodes_located (source file : String) :
    (∀ program, (parseSource source file).run.1 = .ok program →
      ∀ n ∈ Node.partsAll program, n.Points source file) ∧
      (∀ options c, (compile options source file).run.1 = .ok c →
        (parseSource source file).run.1 = .ok c.program ∧
        List.Forall₂ Node.Keeps c.program c.optimized ∧
        ∀ n' ∈ Node.partsAll c.optimized, ∃ n ∈ Node.partsAll c.program,
          n.Points source file ∧ n'.location = n.location) ∧
      ∀ options p, (compile options source file).run.1 = .error (.problem p) → p.OfProgram →
        ∃ program, (parseSource source file).run.1 = .ok program ∧
          ∃ n ∈ Node.partsAll program, n.Points source file ∧ p.location = n.location ∧
            (p.cause.category = .undeclared →
              ∃ name, p.cause = .undeclared name ∧ n.Refers name ∧
                ∃ t ∈ (Scan.ofSource source file).tokens, ∃ k,
                  t.WrittenAt file source.toList k ∧ t.word = (.identifier, name) ∧
                  p.location = t.location) := by
  refine ⟨fun program hparse => ?_, fun options c hcompile => ?_, fun options p hcompile hp => ?_⟩
  · exact Reads.points (parseSource_eq_ok_iff.1 hparse)
  · have hpasses := passes_of_compile hcompile
    have hkeeps := hpasses.optimizes.keeps
    refine ⟨parseSource_eq_ok_iff.2 hpasses.reads, hkeeps, fun n' hn' => ?_⟩
    obtain ⟨n, hn, hkeeps⟩ := Node.Keeps.partsAll hkeeps n' hn'
    exact ⟨n, hn, hpasses.reads.points n hn, hkeeps.location⟩
  · obtain ⟨notices, hrun⟩ := Work.run_eq_error_iff.1 hcompile
    have hstops : Stops options source file (.problem p) :=
      (compile_stages fun _ hn => absurd hn List.not_mem_nil).of_error hrun
    obtain ⟨program, hreads, n, hn, hlocation, hsuits⟩ := hstops.blames hp
    have hpoints := hreads.points n hn
    refine ⟨program, parseSource_eq_ok_iff.2 hreads, n, hn, hpoints, hlocation, ?_⟩
    intro hundeclared
    obtain ⟨name, hcause, hrefers⟩ := hsuits hundeclared
    obtain ⟨t, ht, k, hwritten, hstands, hplace⟩ := hpoints
    exact ⟨name, hcause, hrefers, t, ht, k, hwritten, hrefers.name hstands, hlocation.trans hplace⟩

/-- A sum that is folded, and a variable in the second row that is not declared. -/
theorem undeclared_located :
    (∃ program, (parseSource "return 1 + 2;" "f").run.1 = .ok program ∧
      ∀ n ∈ Node.partsAll program, n.Points "return 1 + 2;" "f") ∧
      (∃ c, (compile {} "return 1 + 2;" "f").run.1 = .ok c ∧
        (parseSource "return 1 + 2;" "f").run.1 = .ok c.program ∧
        List.Forall₂ Node.Keeps c.program c.optimized ∧
        ∀ n' ∈ Node.partsAll c.optimized, ∃ n ∈ Node.partsAll c.program,
          n.Points "return 1 + 2;" "f" ∧ n'.location = n.location) ∧
      ∃ program, (parseSource "int x = 1;\nx = y;" "f").run.1 = .ok program ∧
        ∃ n ∈ Node.partsAll program, n.Points "int x = 1;\nx = y;" "f" ∧
          some ⟨"f", 2, 5, 15⟩ = n.location ∧ n.Refers "y" := by
  have hundeclared : (compile {} "int x = 1;\nx = y;" "f").run.1 =
      .error (.problem ⟨.undeclared "y", some ⟨"f", 2, 5, 15⟩, some "x = y;"⟩) :=
    eq_error_of_map (by decide +kernel)
  obtain ⟨program, hprogram⟩ :=
    exists_of_isOk (r := (parseSource "return 1 + 2;" "f").run.1) (by decide +kernel)
  obtain ⟨c, hc⟩ := exists_of_isOk (r := (compile {} "return 1 + 2;" "f").run.1) (by decide +kernel)
  refine ⟨⟨program, hprogram, (nodes_located _ _).1 program hprogram⟩,
    ⟨c, hc, (nodes_located _ _).2.1 {} c hc⟩, ?_⟩
  obtain ⟨program, hprogram, n, hn, hpoints, hlocation, hname⟩ :=
    (nodes_located _ _).2.2 {} _ hundeclared (.inl (by decide))
  obtain ⟨name, hcause, hrefers, -⟩ := hname rfl
  cases hcause
  exact ⟨program, hprogram, n, hn, hpoints, hlocation, hrefers⟩

end ThreeAddress
