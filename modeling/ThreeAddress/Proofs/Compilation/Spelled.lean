import ThreeAddress.Proofs.Compilation.Stages
import ThreeAddress.Proofs.Tree.Parts

/-!
# Spelling through the phases

What the tokens of a source text are spelled like is kept up to the code: by the grammar, which puts
their texts into trees, by folding, which puts in numbers only, and by lowering.

* `Reads.allSpelled`: the trees of a source text.
* `Folding.foldAll_spelled`: folding keeps the spelling.
* `Instruction.Spelled`, `Passes.spelled`: the code of a compilation.
-/

namespace ThreeAddress

open Node (AllSpelled)

/-! ## The grammar -/

namespace Grammar.Derives

theorem Expression.allSpelled {tier : Tier} {ts : List Token} {e : Node}
    (h : Expression tier ts e) (hlexical : ∀ t ∈ ts, t.Lexical) : e.AllSpelled := by
  induction h with
  | int | float => exact (AllSpelled.leaf rfl).2 trivial
  | string hk =>
    exact (AllSpelled.leaf rfl).2 ((List.forall_mem_singleton.1 hlexical).unquoted hk)
  | var hk => exact (AllSpelled.leaf rfl).2 ((List.forall_mem_singleton.1 hlexical).name hk)
  | parens _ _ _ ih =>
    exact ih (List.forall_mem_append.1 (List.forall_mem_cons.1 hlexical).2).1
  | ofFactor _ ih | ofTerm _ ih => exact ih hlexical
  | high _ hop _ ihl ihr =>
    obtain ⟨hleft, hright⟩ := List.forall_mem_append.1 hlexical
    obtain ⟨hoperator, hright⟩ := List.forall_mem_cons.1 hright
    exact AllSpelled.binary.2 ⟨hoperator.operator (.inr hop), ihl hleft, ihr hright⟩
  | low _ hop _ ihl ihr =>
    obtain ⟨hleft, hright⟩ := List.forall_mem_append.1 hlexical
    obtain ⟨hoperator, hright⟩ := List.forall_mem_cons.1 hright
    exact AllSpelled.binary.2 ⟨hoperator.operator (.inl hop), ihl hleft, ihr hright⟩

theorem Update.allSpelled {ts : List Token} {s : Node} (h : Update ts s)
    (hlexical : ∀ t ∈ ts, t.Lexical) : s.AllSpelled := by
  cases h with
  | plain hname _ hvalue =>
    obtain ⟨hlexicalName, hlexical⟩ := List.forall_mem_cons.1 hlexical
    exact AllSpelled.assign.2 ⟨hlexicalName.name hname,
      hvalue.allSpelled (List.forall_mem_cons.1 hlexical).2⟩
  | typed _ hname _ hvalue =>
    obtain ⟨hlexicalName, hlexical⟩ := List.forall_mem_cons.1 (List.forall_mem_cons.1 hlexical).2
    exact AllSpelled.assign.2 ⟨hlexicalName.name hname,
      hvalue.allSpelled (List.forall_mem_cons.1 hlexical).2⟩

theorem Condition.allSpelled {ts : List Token} {e : Node} (h : Condition ts e)
    (hlexical : ∀ t ∈ ts, t.Lexical) : e.AllSpelled := by
  cases h with
  | parens _ h _ =>
    exact h.allSpelled (List.forall_mem_append.1 (List.forall_mem_cons.1 hlexical).2).1

mutual

theorem Statement.allSpelled {ts : List Token} {s : Node} :
    Statement ts s → (∀ t ∈ ts, t.Lexical) → s.AllSpelled
  | .assignment h _, hlexical => h.allSpelled (List.forall_mem_append.1 hlexical).1
  | .block h, hlexical => h.allSpelled hlexical
  | .ifThen _ hc hb, hlexical => by
    obtain ⟨hcs, hts⟩ := List.forall_mem_append.1 (List.forall_mem_cons.1 hlexical).2
    exact AllSpelled.ifThen.2 ⟨hc.allSpelled hcs, hb.allSpelled hts⟩
  | .ifElse _ hc hb _ hb', hlexical => by
    obtain ⟨hcs, hlexical⟩ := List.forall_mem_append.1 (List.forall_mem_cons.1 hlexical).2
    obtain ⟨hts, hus⟩ := List.forall_mem_append.1 hlexical
    exact AllSpelled.ifElse.2 ⟨hc.allSpelled hcs, hb.allSpelled hts,
      hb'.allSpelled (List.forall_mem_cons.1 hus).2⟩
  | .forLoop _ _ hi _ hc _ hu _ hb, hlexical => by
    have hhead := (List.forall_mem_cons.1 (List.forall_mem_cons.1 hlexical).2).2
    obtain ⟨his, hlexical⟩ := List.forall_mem_append.1 hhead
    obtain ⟨hcs, hlexical⟩ := List.forall_mem_append.1 (List.forall_mem_cons.1 hlexical).2
    obtain ⟨hus, hts⟩ := List.forall_mem_append.1 (List.forall_mem_cons.1 hlexical).2
    exact AllSpelled.forLoop.2 ⟨hi.allSpelled his, hc.allSpelled hcs, hu.allSpelled hus,
      hb.allSpelled (List.forall_mem_cons.1 hts).2⟩
  | .whileLoop _ hc hb, hlexical => by
    obtain ⟨hcs, hts⟩ := List.forall_mem_append.1 (List.forall_mem_cons.1 hlexical).2
    exact AllSpelled.whileLoop.2 ⟨hc.allSpelled hcs, hb.allSpelled hts⟩
  | .ret _ _, _ => (AllSpelled.leaf rfl).2 trivial
  | .retValue _ h _, hlexical =>
    AllSpelled.retValue.2
      (h.allSpelled (List.forall_mem_append.1 (List.forall_mem_cons.1 hlexical).2).1)

theorem Block.allSpelled {ts : List Token} {s : Node} :
    Block ts s → (∀ t ∈ ts, t.Lexical) → s.AllSpelled
  | .braces _ h _, hlexical =>
    AllSpelled.block.2
      (h.allSpelled (List.forall_mem_append.1 (List.forall_mem_cons.1 hlexical).2).1)

/-- **The grammar puts the texts of tokens into its trees.** -/
theorem Program.allSpelled {ts : List Token} {ss : List Node} :
    Program ts ss → (∀ t ∈ ts, t.Lexical) → ∀ s ∈ ss, s.AllSpelled
  | .nil, _ => fun _ hs => absurd hs List.not_mem_nil
  | .cons h h', hlexical => by
    obtain ⟨hts, hus⟩ := List.forall_mem_append.1 hlexical
    exact List.forall_mem_cons.2 ⟨h.allSpelled hts, h'.allSpelled hus⟩

end

end Grammar.Derives

theorem Reads.allSpelled {source file : String} {program : List Node}
    (h : Reads source file program) : ∀ s ∈ program, s.AllSpelled := by
  obtain ⟨ts, hts, hderives⟩ := h.derived
  exact hderives.allSpelled fun t ht => Scan.ofSource_lexical source file t (hts t ht)

/-! ## Folding -/

namespace Folding

/-- What a step makes, if it succeeds, is spelled as in a source text. -/
def Spells (x : Work Node) : Prop :=
  ∀ notices, Meets x notices (fun n _ => n.AllSpelled) fun _ _ => True

theorem spells_pure {n : Node} (h : n.AllSpelled) : Spells (pure n) := fun _ => .pure h

theorem spells_bind {x : Work Node} {f : Node → Work Node} (hx : Spells x)
    (hf : ∀ n, n.AllSpelled → Spells (f n)) : Spells (x >>= f) :=
  fun notices => (hx notices).andThen (fun n notices' h => hf n h notices') fun _ _ h => h

theorem spells_tell {notice : Notice} {x : Work Node} (hx : Spells x) :
    Spells (Work.tell notice >>= fun _ => x) :=
  fun _ => .bind (.ok rfl (hx _))

theorem float_allSpelled {x : Float} {l : Option Location} : (Node.float x l).AllSpelled :=
  (AllSpelled.leaf rfl).2 trivial

variable {op : Operator} {l : Option Location} {kept left right : Node}

theorem ints_spells {a b : Int} (hkept : kept.AllSpelled) : Spells (ints a op b l kept) := by
  unfold ints
  by_cases hzero : op = .div ∧ b = 0
  · rw [if_pos hzero]
    exact fun _ => .throw trivial
  · rw [if_neg hzero]
    cases intResult? op a b with
    | none => exact spells_pure hkept
    | some result =>
      cases hresult : Literal.hasText result with
      | true =>
        simp only [hresult, if_true]
        exact spells_tell (spells_pure ((AllSpelled.leaf rfl).2 trivial))
      | false =>
        simp only [hresult, Bool.false_eq_true, if_false]
        exact spells_tell (spells_pure hkept)

theorem floats_spells {x y : Float} (hkept : kept.AllSpelled) :
    Spells (floats x op y l kept) := by
  unfold floats
  split
  · exact spells_pure hkept
  · exact spells_tell (spells_pure float_allSpelled)

theorem operation_spells (hop : op ∈ Operator.known) (hleft : left.AllSpelled)
    (hright : right.AllSpelled) : Spells (operation left op right l) := by
  have hkept : (Node.binary left op right l).AllSpelled := AllSpelled.binary.2 ⟨hop, hleft, hright⟩
  unfold operation
  split
  · exact ints_spells hkept
  · exact floats_spells hkept
  · split
    · exact floats_spells (AllSpelled.binary.2 ⟨hop, float_allSpelled, hright⟩)
    · exact spells_tell (spells_pure hkept)
  · split
    · exact floats_spells (AllSpelled.binary.2 ⟨hop, hleft, float_allSpelled⟩)
    · exact spells_tell (spells_pure hkept)
  · exact spells_pure hkept

theorem fold_spells (n : Node) (h : n.AllSpelled) : Spells (fold n) := by
  induction n with
  | assign | int | float | string | var | ret | block => exact spells_pure h
  | bare => exact fun _ => .throw trivial
  | binary left op right l ihl ihr =>
    obtain ⟨hop, hleft, hright⟩ := AllSpelled.binary.1 h
    rw [fold]
    refine spells_bind (ihl hleft) fun left hleft => ?_
    exact spells_bind (ihr hright) fun right hright => operation_spells hop hleft hright
  | ifThen condition thenBranch l ihc iht =>
    obtain ⟨hc, ht⟩ := AllSpelled.ifThen.1 h
    rw [fold]
    refine spells_bind (ihc hc) fun c hc => ?_
    exact spells_bind (iht ht) fun t ht => spells_pure (AllSpelled.ifThen.2 ⟨hc, ht⟩)
  | ifElse condition thenBranch elseBranch l ihc iht ihe =>
    obtain ⟨hc, ht, he⟩ := AllSpelled.ifElse.1 h
    rw [fold]
    refine spells_bind (ihc hc) fun c hc => ?_
    refine spells_bind (iht ht) fun t ht => ?_
    exact spells_bind (ihe he) fun e he => spells_pure (AllSpelled.ifElse.2 ⟨hc, ht, he⟩)
  | forLoop init condition update body l _ _ _ ihb =>
    obtain ⟨hi, hc, hu, hb⟩ := AllSpelled.forLoop.1 h
    rw [fold]
    exact spells_bind (ihb hb) fun b hb => spells_pure (AllSpelled.forLoop.2 ⟨hi, hc, hu, hb⟩)
  | whileLoop condition body l _ ihb =>
    obtain ⟨hc, hb⟩ := AllSpelled.whileLoop.1 h
    rw [fold]
    exact spells_bind (ihb hb) fun b hb => spells_pure (AllSpelled.whileLoop.2 ⟨hc, hb⟩)
  | retValue value l ih =>
    rw [fold]
    exact spells_bind (ih (AllSpelled.retValue.1 h)) fun v hv =>
      spells_pure (AllSpelled.retValue.2 hv)

/-- **Folding keeps the spelling.** -/
theorem foldAll_spelled {ss : List Node} (h : ∀ s ∈ ss, s.AllSpelled) (notices : List Notice) :
    Meets (foldAll ss) notices (fun ss' _ => ∀ s ∈ ss', s.AllSpelled) fun _ _ => True := by
  induction ss generalizing notices with
  | nil => exact .pure h
  | cons s ss ih =>
    obtain ⟨hs, hss⟩ := List.forall_mem_cons.1 h
    rw [foldAll]
    refine (fold_spells s hs notices).andThen (fun s' t hs' => ?_) fun _ _ h => h
    refine (ih hss t).andThen (fun ss' _ hss' => ?_) fun _ _ h => h
    exact .pure (List.forall_mem_cons.2 ⟨hs', hss'⟩)

end Folding

/-! ## Lowering -/

/-- The operand is spelled as in a source text. -/
def Operand.Spelled : Operand → Prop
  | .var name => IsName name
  | .string value => '"' ∉ value.toList
  | _ => True

/-- The instruction is spelled as the code of a source text is. -/
def Instruction.Spelled : Instruction → Prop
  | .binary _ left op right => left.Spelled ∧ op ∈ Operator.known ∧ right.Spelled
  | .copy name value => IsName name ∧ value.Spelled
  | .jumpUnless condition _ => condition.Spelled
  | .retValue value => value.Spelled
  | .jump _ | .label _ | .ret => True

theorem Computes.spelled {e : Node} {t t' : Nat} {code : List Instruction} {a : Operand}
    (h : Computes e t code a t') (he : e.AllSpelled) : (∀ i ∈ code, i.Spelled) ∧ a.Spelled := by
  induction h with
  | int | float => exact ⟨fun _ hi => absurd hi List.not_mem_nil, trivial⟩
  | string | var =>
    exact ⟨fun _ hi => absurd hi List.not_mem_nil, (AllSpelled.leaf rfl).1 he⟩
  | binary _ _ ihl ihr =>
    obtain ⟨hop, hl, hr⟩ := AllSpelled.binary.1 he
    obtain ⟨hleftCode, ha⟩ := ihl hl
    obtain ⟨hrightCode, hb⟩ := ihr hr
    refine ⟨List.forall_mem_append.2 ⟨List.forall_mem_append.2 ⟨hleftCode, hrightCode⟩, ?_⟩,
      trivial⟩
    exact List.forall_mem_singleton.2 ⟨ha, hop, hb⟩

theorem Emits.spelled {s : Node} {k k' : Lowering.Counters} {code : List Instruction}
    (h : Emits s k code k') (hs : s.AllSpelled) : ∀ i ∈ code, i.Spelled := by
  induction h with
  | assign c =>
    obtain ⟨hname, hvalue⟩ := AllSpelled.assign.1 hs
    obtain ⟨hcode, ha⟩ := c.spelled hvalue
    simpa [or_imp, forall_and, Instruction.Spelled] using ⟨hcode, hname, ha⟩
  | block_nil => exact fun _ hi => absurd hi List.not_mem_nil
  | block_cons _ _ ih₁ ih₂ =>
    obtain ⟨hs, hss⟩ := List.forall_mem_cons.1 (AllSpelled.block.1 hs)
    exact List.forall_mem_append.2 ⟨ih₁ hs, ih₂ (AllSpelled.block.2 hss)⟩
  | ifThen c _ ih =>
    obtain ⟨hc, ht⟩ := AllSpelled.ifThen.1 hs
    obtain ⟨htest, ha⟩ := c.spelled hc
    simpa [or_imp, forall_and, Instruction.Spelled] using ⟨htest, ha, ih ht⟩
  | ifElse c _ _ ih₁ ih₂ =>
    obtain ⟨hc, ht, he⟩ := AllSpelled.ifElse.1 hs
    obtain ⟨htest, ha⟩ := c.spelled hc
    simpa [or_imp, forall_and, Instruction.Spelled] using ⟨htest, ha, ih₁ ht, ih₂ he⟩
  | whileLoop c _ ih =>
    obtain ⟨hc, hb⟩ := AllSpelled.whileLoop.1 hs
    obtain ⟨htest, ha⟩ := c.spelled hc
    simpa [or_imp, forall_and, Instruction.Spelled] using ⟨htest, ha, ih hb⟩
  | forLoop _ c _ _ ih₁ ih₂ ih₃ =>
    obtain ⟨hi, hc, hu, hb⟩ := AllSpelled.forLoop.1 hs
    obtain ⟨htest, ha⟩ := c.spelled hc
    simpa [or_imp, forall_and, Instruction.Spelled] using ⟨ih₁ hi, htest, ha, ih₂ hb, ih₃ hu⟩
  | ret => exact List.forall_mem_singleton.2 trivial
  | retValue c =>
    obtain ⟨hcode, ha⟩ := c.spelled (AllSpelled.retValue.1 hs)
    simpa [or_imp, forall_and] using ⟨hcode, ha⟩

/-! ## Compilations -/

theorem generateAll_spelled {ss : List Node} {code : List Instruction}
    (hstatements : ∀ s ∈ ss, s.IsStatement) (hspelled : ∀ s ∈ ss, s.AllSpelled)
    (h : Lowering.generateAll ss = .ok code) : ∀ i ∈ code, i.Spelled := by
  induction ss generalizing code with
  | nil =>
    cases h
    exact fun _ hi => absurd hi List.not_mem_nil
  | cons s ss ih =>
    obtain ⟨hs, hss⟩ := List.forall_mem_cons.1 hstatements
    obtain ⟨hs', hss'⟩ := List.forall_mem_cons.1 hspelled
    obtain ⟨first, k, hfirst, e⟩ := emits_of_isStatement hs {}
    rw [Lowering.generateAll, generate_of_emits hfirst] at h
    cases hmore : Lowering.generateAll ss with
    | error f =>
      rw [hmore] at h
      cases h
    | ok more =>
      rw [hmore] at h
      cases h
      exact List.forall_mem_append.2 ⟨e.spelled hs', ih hss hss' hmore⟩

namespace Passes

variable {options : Options} {source file : String} {c : Compilation}

theorem allSpelled (h : Passes options source file c) : ∀ s ∈ c.optimized, s.AllSpelled := by
  have hprogram := h.reads.allSpelled
  have hoptimizes := h.optimizes
  generalize options.fold = fold at hoptimizes
  generalize c.program = program at hprogram hoptimizes
  cases hoptimizes with
  | kept => exact hprogram
  | folded hfold => exact (Folding.foldAll_spelled hprogram _).of_ok hfold

/-- **The code of a source text is spelled as the text is.** -/
theorem spelled (h : Passes options source file c) : ∀ i ∈ c.code, i.Spelled :=
  generateAll_spelled (fun s hs => (h.regular s hs).isStatement) h.allSpelled h.code

end Passes

/-- What a compilation that succeeds has gone through. -/
theorem passes_of_compile {options : Options} {source file : String} {c : Compilation}
    (h : (compile options source file).run.1 = .ok c) : Passes options source file c := by
  obtain ⟨notices, hrun⟩ := Work.run_eq_ok_iff.1 h
  exact (compile_stages fun _ hn => absurd hn List.not_mem_nil).of_ok hrun

end ThreeAddress
