import ThreeAddress.Proofs.Compilation.Totality

/-!
# Which temporaries are set

Lowering numbers the temporaries of each statement from zero and does not look at the variables of
the program. A variable may be called like a temporary, and then both are one.

* `targetsOf`: the temporaries that some code sets.
* `Node.operations`: how many operations a tree has.
* `Emits.targetsOf_eq`: each operation of a statement sets the next temporary.

**Theorem (`compile_targets`).** The statements of a compiled program set the temporaries from zero
on, as many as they have operations. One of them is called like a variable of the program iff the
program has a variable `tN` for an `N` below that number.

That is not never: `int t0 = 5; int x = (1 + 2) * t0;` computes the sum into `t0`
(`exists_shadowed_variable`).
-/

namespace ThreeAddress

open Lowering

/-! ## Targets -/

/-- The temporary that an instruction sets. -/
def Instruction.target? : Instruction → Option Nat
  | .binary target _ _ _ => some target
  | _ => none

/-- The temporaries that are set in some code, in order. -/
def targetsOf (code : List Instruction) : List Nat := code.filterMap Instruction.target?

@[simp] theorem targetsOf_nil : targetsOf [] = [] := rfl

@[simp] theorem targetsOf_append (code code' : List Instruction) :
    targetsOf (code ++ code') = targetsOf code ++ targetsOf code' :=
  List.filterMap_append

@[simp] theorem targetsOf_cons (i : Instruction) (code : List Instruction) :
    targetsOf (i :: code) = i.target?.toList ++ targetsOf code := by
  cases h : i.target? with
  | none => exact List.filterMap_cons_none h
  | some number => exact List.filterMap_cons_some h

/-! ## Operations -/

namespace Node

mutual

/-- How many operations a tree has. -/
def operations : Node → Nat
  | assign _ value _ _ => value.operations
  | binary left _ right _ => left.operations + right.operations + 1
  | ifThen condition thenBranch _ => condition.operations + thenBranch.operations
  | ifElse condition thenBranch elseBranch _ =>
    condition.operations + thenBranch.operations + elseBranch.operations
  | forLoop init condition update body _ =>
    init.operations + condition.operations + body.operations + update.operations
  | whileLoop condition body _ => condition.operations + body.operations
  | retValue value _ => value.operations
  | block statements _ => operationsAll statements
  | _ => 0

/-- How many operations some trees have. -/
def operationsAll : List Node → Nat
  | [] => 0
  | s :: ss => s.operations + operationsAll ss

end

end Node

/-! ## One temporary for each operation -/

theorem Computes.temps_eq {e : Node} {t t' : Nat} {code : List Instruction} {a : Operand}
    (h : Computes e t code a t') : t' = t + e.operations := by
  induction h with
  | int | float | string | var => rfl
  | binary _ _ ihl ihr =>
    rw [Node.operations, ihr, ihl]
    omega

theorem Computes.targetsOf_eq {e : Node} {t t' : Nat} {code : List Instruction} {a : Operand}
    (h : Computes e t code a t') : targetsOf code = List.range' t e.operations := by
  induction h with
  | int | float | string | var => rfl
  | binary cl cr ihl ihr =>
    rw [Node.operations, ← List.range'_append_1, ← List.range'_append_1, targetsOf_append,
      targetsOf_append, ihl, ihr, cr.temps_eq, cl.temps_eq, Nat.add_assoc]
    rfl

theorem Emits.temps_eq {s : Node} {k k' : Counters} {code : List Instruction}
    (h : Emits s k code k') : k'.temps = k.temps + s.operations := by
  induction h with
  | assign c | retValue c => exact c.temps_eq
  | block_nil | ret => rfl
  | block_cons _ _ ih₁ ih₂ =>
    rw [ih₂, ih₁, Nat.add_assoc]
    rfl
  | ifThen c _ ih | whileLoop c _ ih =>
    rw [ih, c.temps_eq, Nat.add_assoc]
    rfl
  | ifElse c _ _ ih₁ ih₂ =>
    rw [ih₂, ih₁, c.temps_eq, Node.operations]
    simp only [Nat.add_assoc]
  | forLoop _ c _ _ ih₁ ih₂ ih₃ =>
    rw [ih₃, ih₂, c.temps_eq, ih₁, Node.operations]
    simp only [Nat.add_assoc]

/-- **Each operation of a statement sets the next temporary.** -/
theorem Emits.targetsOf_eq {s : Node} {k k' : Counters} {code : List Instruction}
    (h : Emits s k code k') : targetsOf code = List.range' k.temps s.operations := by
  induction h with
  | assign c | retValue c =>
    rw [targetsOf_append, c.targetsOf_eq]
    exact List.append_nil _
  | block_nil | ret => rfl
  | block_cons e₁ _ ih₁ ih₂ =>
    rw [targetsOf_append, ih₁, ih₂, e₁.temps_eq]
    exact List.range'_append_1
  | ifThen c _ ih | whileLoop c _ ih =>
    simp only [targetsOf_append, targetsOf_cons, Instruction.target?, c.targetsOf_eq, ih,
      c.temps_eq]
    rw [Node.operations, ← List.range'_append_1]
    exact List.append_nil _
  | ifElse c e₁ _ ih₁ ih₂ =>
    simp only [targetsOf_append, targetsOf_cons, Instruction.target?, c.targetsOf_eq, ih₁, ih₂,
      e₁.temps_eq, c.temps_eq]
    rw [Node.operations, ← List.range'_append_1, ← List.range'_append_1, ← Nat.add_assoc]
    exact List.append_nil _
  | forLoop e₁ c e₂ _ ih₁ ih₂ ih₃ =>
    simp only [targetsOf_append, targetsOf_cons, Instruction.target?, c.targetsOf_eq, ih₁, ih₂, ih₃,
      e₂.temps_eq, c.temps_eq, e₁.temps_eq]
    rw [Node.operations, ← List.range'_append_1, ← List.range'_append_1, ← List.range'_append_1,
      ← Nat.add_assoc, ← Nat.add_assoc, ← Nat.add_assoc]
    exact List.append_nil _

/-- The code of a tree on its own sets the temporaries from zero on. -/
theorem targetsOf_generate {s : Node} (hs : s.IsStatement) {code : List Instruction}
    (h : generate s = .ok code) : targetsOf code = List.range s.operations := by
  obtain ⟨code', k', hcode, e⟩ := emits_of_isStatement hs {}
  rw [generate_of_emits hcode] at h
  cases h
  rw [e.targetsOf_eq, List.range_eq_range']

/-! ## Programs -/

/-- The code of a program is that of its statements, one after the other. -/
theorem generateAll_pieces {ss : List Node} {code : List Instruction}
    (h : generateAll ss = .ok code) :
    ∃ pieces, List.Forall₂ (fun s piece => generate s = .ok piece) ss pieces ∧
      code = pieces.flatten := by
  induction ss generalizing code with
  | nil =>
    cases h
    exact ⟨[], .nil, rfl⟩
  | cons s ss ih =>
    rw [generateAll] at h
    cases hfirst : generate s with
    | error e =>
      rw [hfirst] at h
      cases h
    | ok first =>
      cases hmore : generateAll ss with
      | error e =>
        rw [hfirst, hmore] at h
        cases h
      | ok more =>
        rw [hfirst, hmore] at h
        cases h
        obtain ⟨pieces, hpieces, rfl⟩ := ih hmore
        exact ⟨first :: pieces, .cons hfirst hpieces, rfl⟩

/-- Some temporary that the code sets is called like a variable of the trees. -/
def Shadows (code : List Instruction) (program : List Node) : Prop :=
  ∃ n ∈ targetsOf code, tempName n ∈ Node.namesAll program

instance (code : List Instruction) (program : List Node) : Decidable (Shadows code program) :=
  inferInstanceAs (Decidable (∃ n ∈ targetsOf code, tempName n ∈ Node.namesAll program))

/-- **Which temporaries a compiled program sets.** -/
theorem compile_targets {options : Options} {source file : String} {c : Compilation}
    {notices : List Notice} (h : compile options source file [] = .ok c notices) :
    ∃ pieces, c.code = pieces.flatten ∧
      List.Forall₂ (fun s piece => generate s = .ok piece ∧
        targetsOf piece = List.range s.operations ∧
        (Shadows piece c.program ↔ ∃ n < s.operations, tempName n ∈ Node.namesAll c.program))
        c.optimized pieces := by
  have hmeets := compile_orderly options source file [] fun _ hn => absurd hn List.not_mem_nil
  have hc : c.WellFormed := (hmeets.of_ok h).1.2
  obtain ⟨pieces, hpieces, hcode⟩ := generateAll_pieces hc.code
  have hstatements : ∀ s ∈ c.optimized, s.IsStatement := fun s hs => (hc.optimized s hs).isStatement
  refine ⟨pieces, hcode, ?_⟩
  clear hcode
  generalize c.optimized = ss at hpieces hstatements
  induction hpieces with
  | nil => exact .nil
  | cons hpiece _ ih =>
    obtain ⟨hs, hss⟩ := List.forall_mem_cons.1 hstatements
    have htargets := targetsOf_generate hs hpiece
    refine .cons ⟨hpiece, htargets, ?_⟩ (ih hss)
    simp only [Shadows, htargets, List.mem_range]

/-- A program in which a variable is called like the first temporary. -/
def sumIntoVariable : String := "int t0 = 5; int x = (1 + 2) * t0;"

theorem sumIntoVariable_targets :
    ∃ (c : Compilation) (notices : List Notice),
      compile {} sumIntoVariable "<input>" [] = .ok c notices ∧
      c.optimized.map Node.operations = [0, 2] ∧
      ∃ pieces, c.code = pieces.flatten ∧
        List.Forall₂ (fun s piece => generate s = .ok piece ∧
          targetsOf piece = List.range s.operations ∧
          (Shadows piece c.program ↔ ∃ n < s.operations, tempName n ∈ Node.namesAll c.program))
          c.optimized pieces := by
  have hrun : (match compile {} sumIntoVariable "<input>" [] with
      | .ok c _ => c.optimized.map Node.operations
      | .error _ _ => []) = [0, 2] := by
    decide +kernel
  cases h : compile {} sumIntoVariable "<input>" [] with
  | ok c notices =>
    rw [h] at hrun
    exact ⟨c, notices, rfl, hrun, compile_targets h⟩
  | error e notices =>
    rw [h] at hrun
    cases hrun

/-- **A temporary may be a variable of the program.** The sum of `sumIntoVariable` is computed into
`t0`, and the product then reads it there in place of the variable. -/
theorem exists_shadowed_variable :
    ¬ ∀ (source file : String) (c : Compilation) (notices : List Notice),
      compile {} source file [] = .ok c notices →
        ∀ s ∈ c.optimized, ∀ piece, generate s = .ok piece → ¬ Shadows piece c.program := by
  intro h
  have hrun : (match compile {} sumIntoVariable "<input>" [] with
      | .ok c _ => c.optimized.any fun s =>
        match generate s with
        | .ok piece => decide (Shadows piece c.program)
        | .error _ => false
      | .error _ _ => false) = true := by
    decide +kernel
  cases hc : compile {} sumIntoVariable "<input>" [] with
  | error e notices =>
    rw [hc] at hrun
    cases hrun
  | ok c notices =>
    rw [hc] at hrun
    obtain ⟨s, hs, hshadows⟩ := List.any_eq_true.1 hrun
    cases hpiece : generate s with
    | error e =>
      rw [hpiece] at hshadows
      cases hshadows
    | ok piece =>
      rw [hpiece] at hshadows
      exact h _ _ c notices hc s hs piece hpiece (of_decide_eq_true hshadows)

end ThreeAddress
