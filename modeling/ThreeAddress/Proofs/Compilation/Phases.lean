import ThreeAddress.Compilation
import ThreeAddress.Proofs.Code.Simulation
import ThreeAddress.Proofs.Steps
import ThreeAddress.Proofs.Tree.Regular

/-!
# Phases on regular trees

What can go wrong in a phase that is given regular trees, and what it writes. An integer is written
in an operand, in a notice of folding and in the report of a division by zero, and only one that has
a text can be.

* `Written`: the integers in an operand, an instruction, a notice have texts.
* `Cause.InProgram`: the causes that lie in a program, with the integers of their reports.
* `Orderly`: a phase fails for causes in the program only, and its notices can be written.
* `checkAll_orderly`, `foldAll_orderly`, `generateAll_of_regular`: the phases behind the grammar.
  Folding keeps trees regular, and lowering does not fail at all.
-/

namespace ThreeAddress

open Node (RegularExpression Regular)

/-! ## Integers that are written -/

/-- An operand that is an integer has a text. -/
def Operand.Written : Operand → Prop
  | .int value => Literal.hasText value = true
  | _ => True

/-- The operands of an instruction have texts. -/
def Instruction.Written : Instruction → Prop
  | .binary _ left _ right => left.Written ∧ right.Written
  | .copy _ value | .retValue value => value.Written
  | .jumpUnless condition _ => condition.Written
  | .jump _ | .label _ | .ret => True

/-- The integers that a notice tells have texts. -/
def Notice.Written : Notice → Prop
  | .foldedInts left _ right result =>
    Literal.hasText left = true ∧ Literal.hasText right = true ∧ Literal.hasText result = true
  | _ => True

/-- All notices can be written. -/
def Notice.AllWritten (notices : List Notice) : Prop := ∀ n ∈ notices, n.Written

/-- The causes that lie in a program. The integers of a division by zero have texts. -/
inductive Cause.InProgram : Cause → Prop
  | unterminatedString : InProgram .unterminatedString
  | unexpectedToken {found expected : String} : InProgram (.unexpectedToken found expected)
  | missingExpression {found : String} : InProgram (.missingExpression found)
  | unreadableInteger {length : Nat} : InProgram (.unreadableInteger length)
  | undeclared {name : String} : InProgram (.undeclared name)
  | redeclared {name type : String} : InProgram (.redeclared name type)
  | operandMismatch {left op right : String} : InProgram (.operandMismatch left op right)
  | operandsNotNumeric {left op right : String} : InProgram (.operandsNotNumeric left op right)
  | assignmentMismatch {name target value : String} :
      InProgram (.assignmentMismatch name target value)
  | conditionNotNumeric {construct actual : String} :
      InProgram (.conditionNotNumeric construct actual)
  | untypedResult : InProgram .untypedResult
  | divisionByZero {a b : Int} :
      Literal.hasText a = true → Literal.hasText b = true → InProgram (.divisionByZero a b)

/-- The failure is a problem of the program. -/
def Failure.InProgram (e : Failure) : Prop := ∃ p, e = .problem p ∧ p.cause.InProgram

/-! ## Orderly steps -/

/-- From written notices the step comes to a good result, or it fails for a cause in the program;
the notices that it adds can be written. The first argument says where the notices are. -/
def Orderly {σ α : Type} (notices : σ → List Notice) (x : EStateM Failure σ α)
    (good : α → Prop) : Prop :=
  ∀ s, Notice.AllWritten (notices s) →
    Meets x s (fun a s' => good a ∧ Notice.AllWritten (notices s'))
      fun e s' => e.InProgram ∧ Notice.AllWritten (notices s')

namespace Orderly

variable {σ α β : Type} {notices : σ → List Notice} {x : EStateM Failure σ α}
  {f : α → EStateM Failure σ β} {good good' : α → Prop} {goodNext : β → Prop}

theorem pure {a : α} (h : good a) : Orderly notices (Pure.pure a : EStateM Failure σ α) good :=
  fun _ hs => .pure ⟨h, hs⟩

theorem throw {e : Failure} (h : e.InProgram) :
    Orderly notices (MonadExcept.throw e : EStateM Failure σ α) good :=
  fun _ hs => .throw ⟨h, hs⟩

theorem bind (hx : Orderly notices x good) (hf : ∀ a, good a → Orderly notices (f a) goodNext) :
    Orderly notices (x >>= f) goodNext :=
  fun s hs => (hx s hs).andThen (fun a s' h => hf a h.1 s' h.2) fun _ _ h => h

theorem mono (hx : Orderly notices x good) (h : ∀ a, good a → good' a) :
    Orderly notices x good' :=
  fun s hs => (hx s hs).mono (fun a _ h' => ⟨h a h'.1, h'.2⟩) fun _ _ h => h

end Orderly

/-! ## Checking -/

namespace Typing

variable {lines : List String}

theorem typeOf_inProgram {s : Symbols} {e : Node} {p : Problem} (he : e.IsExpression)
    (h : typeOf lines s e = .error p) : p.cause.InProgram := by
  induction he generalizing p with
  | int | float | string => cases h
  | var =>
    rw [typeOf] at h
    split at h
    · cases h
    · cases h
      exact .undeclared
  | @binary left right op _ _ _ ihl ihr =>
    rw [typeOf] at h
    cases hl : typeOf lines s left with
    | error p' =>
      rw [hl] at h
      cases h
      exact ihl hl
    | ok a =>
      cases hr : typeOf lines s right with
      | error p' =>
        rw [hl, hr] at h
        cases h
        exact ihr hr
      | ok b =>
        rw [hl, hr] at h
        simp only [bind, Except.bind, operationType] at h
        split at h
        · cases h
          exact .operandMismatch
        · split at h
          · cases h
          · split at h
            · cases h
            · cases h
              exact .operandsNotNumeric

theorem typed_orderly {e : Node} (he : e.IsExpression) :
    Orderly State.notices (typed lines e) fun _ => True := by
  intro st hst
  unfold typed
  refine .bind (.ok rfl ?_)
  split
  · exact .pure ⟨trivial, hst⟩
  · next p h => exact .throw ⟨⟨p, rfl, typeOf_inProgram he h⟩, hst⟩

theorem condition_orderly {construct : String} {e : Node} (he : e.IsExpression) :
    Orderly State.notices (condition lines construct e) fun _ => True := by
  unfold condition
  refine (typed_orderly he).bind fun type _ => ?_
  split
  · exact .pure trivial
  · exact .throw ⟨_, rfl, .conditionNotNumeric⟩

theorem declare_orderly {name : String} {type : Ty} {l : Option Location} :
    Orderly State.notices (declare lines name type l) fun _ => True := by
  intro st hst
  unfold declare
  refine .bind (.ok rfl ?_)
  split
  · exact .throw ⟨⟨_, rfl, .redeclared⟩, hst⟩
  · exact .ok rfl ⟨trivial, hst⟩

theorem assign_orderly {name : String} {value : Ty} {l : Option Location} :
    Orderly State.notices (assign lines name value l) fun _ => True := by
  intro st hst
  unfold assign
  refine .bind (.ok rfl ?_)
  split
  · exact .throw ⟨⟨_, rfl, .undeclared⟩, hst⟩
  · split
    · exact .ok rfl ⟨trivial, List.forall_mem_append.2 ⟨hst, List.forall_mem_singleton.2 trivial⟩⟩
    · split
      · exact .pure ⟨trivial, hst⟩
      · exact .throw ⟨⟨_, rfl, .assignmentMismatch⟩, hst⟩

theorem checkAll_orderly_of {ss : List Node}
    (h : ∀ s ∈ ss, Orderly State.notices (check lines s) fun _ => True) :
    Orderly State.notices (checkAll lines ss) fun _ => True := by
  induction ss with
  | nil => exact .pure trivial
  | cons s ss ih =>
    obtain ⟨hs, hss⟩ := List.forall_mem_cons.1 h
    rw [checkAll]
    exact hs.bind fun _ _ => ih hss

theorem check_orderly {s : Node} (hs : s.IsStatement) :
    Orderly State.notices (check lines s) fun _ => True := by
  induction hs with
  | @assign _ _ declares _ he =>
    rw [check]
    refine (typed_orderly he).bind fun type _ => ?_
    cases declares with
    | none => exact assign_orderly
    | some declared => exact declare_orderly.bind fun _ _ => assign_orderly
  | ret => exact .pure trivial
  | retValue he =>
    rw [check]
    refine (typed_orderly he).bind fun type _ => ?_
    split
    · exact .throw ⟨_, rfl, .untypedResult⟩
    · exact .pure trivial
  | block _ ih =>
    rw [check]
    exact checkAll_orderly_of ih
  | ifThen hc _ iht =>
    rw [check]
    exact (condition_orderly hc).bind fun _ _ => iht
  | ifElse hc _ _ iht ihe =>
    rw [check]
    exact (condition_orderly hc).bind fun _ _ => iht.bind fun _ _ => ihe
  | forLoop _ hc _ _ ihi ihu ihb =>
    rw [check]
    exact ihi.bind fun _ _ => (condition_orderly hc).bind fun _ _ => ihu.bind fun _ _ => ihb
  | whileLoop hc _ ihb =>
    rw [check]
    exact (condition_orderly hc).bind fun _ _ => ihb

/-- **The check of regular trees is orderly.** -/
theorem typecheck_orderly {ss : List Node} (h : ∀ s ∈ ss, s.Regular) :
    Orderly id (typecheck lines ss) fun _ => True := by
  intro notices hnotices
  have hcheck : Orderly State.notices (checkAll lines ss) fun _ => True :=
    checkAll_orderly_of fun s hs => check_orderly (h s hs).isStatement
  have hmeets := hcheck { notices } hnotices
  unfold Meets at hmeets
  unfold Meets typecheck tabulate run
  cases hrun : checkAll lines ss { notices } with
  | ok _ st =>
    rw [hrun] at hmeets
    exact hmeets
  | error e st =>
    rw [hrun] at hmeets
    exact hmeets

end Typing

/-! ## Folding -/

/-- A notice in front of other work. -/
theorem Orderly.tell_bind {α : Type} {n : Notice} {f : Unit → Work α} {good : α → Prop}
    (h : n.Written) (hf : Orderly id (f ()) good) : Orderly id (Work.tell n >>= f) good :=
  fun notices hs => .bind (.ok rfl
    (hf (notices ++ [n]) (List.forall_mem_append.2 ⟨hs, List.forall_mem_singleton.2 h⟩)))

namespace Folding

variable {op : Operator} {l : Option Location}

/-- A result without a text is not put in. -/
theorem ints_orderly {a b : Int} {kept : Node} (ha : Literal.hasText a = true)
    (hb : Literal.hasText b = true) (hkept : RegularExpression kept) :
    Orderly id (ints a op b l kept) RegularExpression := by
  unfold ints
  by_cases hzero : op = .div ∧ b = 0
  · rw [if_pos hzero]
    exact .throw ⟨_, rfl, .divisionByZero ha hb⟩
  · rw [if_neg hzero]
    cases intResult? op a b with
    | none => exact .pure hkept
    | some result =>
      cases hresult : Literal.hasText result with
      | true =>
        simp only [hresult, if_true]
        exact .tell_bind ⟨ha, hb, hresult⟩ (.pure (.int hresult))
      | false =>
        simp only [hresult, Bool.false_eq_true, if_false]
        exact .tell_bind trivial (.pure hkept)

theorem floats_orderly {x y : Float} {kept : Node} (hkept : RegularExpression kept) :
    Orderly id (floats x op y l kept) RegularExpression := by
  unfold floats
  split
  · exact .pure hkept
  · exact .tell_bind trivial (.pure .float)

theorem operation_orderly {left right : Node} (hleft : RegularExpression left)
    (hright : RegularExpression right) :
    Orderly id (operation left op right l) RegularExpression := by
  have hkept : RegularExpression (.binary left op right l) := .binary hleft hright
  unfold operation
  split
  · cases hleft with
    | int ha =>
      cases hright with
      | int hb => exact ints_orderly ha hb hkept
  · exact floats_orderly hkept
  · split
    · exact floats_orderly (.binary .float hright)
    · exact .tell_bind trivial (.pure hkept)
  · split
    · exact floats_orderly (.binary hleft .float)
    · exact .tell_bind trivial (.pure hkept)
  · exact .pure hkept

theorem fold_expression_orderly {e : Node} (he : RegularExpression e) :
    Orderly id (fold e) RegularExpression := by
  induction he with
  | int ha => exact .pure (.int ha)
  | float => exact .pure .float
  | string => exact .pure .string
  | var => exact .pure .var
  | binary _ _ ihl ihr =>
    rw [fold]
    exact ihl.bind fun _ hl => ihr.bind fun _ hr => operation_orderly hl hr

/-- A block stays a block, so the tree around it stays regular. -/
theorem fold_orderly {s : Node} (hs : s.Regular) :
    Orderly id (fold s) fun s' => s'.Regular ∧ (s.isBlock = true → s'.isBlock = true) := by
  induction hs with
  | assign he => exact .pure ⟨.assign he, id⟩
  | block hss => exact .pure ⟨.block hss, id⟩
  | ret => exact .pure ⟨.ret, id⟩
  | retValue he =>
    rw [fold]
    exact (fold_expression_orderly he).bind fun _ he => .pure ⟨.retValue he, nofun⟩
  | ifThen hc hblock _ iht =>
    rw [fold]
    refine (fold_expression_orderly hc).bind fun _ hc => ?_
    refine iht.bind fun _ ht => ?_
    exact .pure ⟨.ifThen hc (ht.2 hblock) ht.1, nofun⟩
  | ifElse hc hthen _ helse _ iht ihe =>
    rw [fold]
    refine (fold_expression_orderly hc).bind fun _ hc => ?_
    refine iht.bind fun _ ht => ?_
    refine ihe.bind fun _ he => ?_
    exact .pure ⟨.ifElse hc (ht.2 hthen) ht.1 (he.2 helse) he.1, nofun⟩
  | forLoop hinit hi hc hupdate hu hblock _ _ _ ihb =>
    rw [fold]
    refine ihb.bind fun _ hb => ?_
    exact .pure ⟨.forLoop hinit hi hc hupdate hu (hb.2 hblock) hb.1, nofun⟩
  | whileLoop hc hblock _ ihb =>
    rw [fold]
    refine ihb.bind fun _ hb => ?_
    exact .pure ⟨.whileLoop hc (hb.2 hblock) hb.1, nofun⟩

/-- **Folding is orderly and keeps trees regular.** -/
theorem foldAll_orderly {ss : List Node} (h : ∀ s ∈ ss, s.Regular) :
    Orderly id (foldAll ss) fun ss' => ∀ s ∈ ss', s.Regular := by
  induction ss with
  | nil => exact .pure fun _ hs => absurd hs List.not_mem_nil
  | cons s ss ih =>
    obtain ⟨hs, hss⟩ := List.forall_mem_cons.1 h
    rw [foldAll]
    refine (fold_orderly hs).bind fun _ hs => ?_
    refine (ih hss).bind fun _ hss => ?_
    exact .pure (List.forall_mem_cons.2 ⟨hs.1, hss⟩)

end Folding

/-! ## Lowering -/

open Lowering

theorem Computes.written {e : Node} {t t' : Nat} {code : List Instruction} {a : Operand}
    (h : Computes e t code a t') (he : RegularExpression e) :
    (∀ i ∈ code, i.Written) ∧ a.Written := by
  induction h with
  | int =>
    cases he with
    | int hvalue => exact ⟨fun _ hi => absurd hi List.not_mem_nil, hvalue⟩
  | float | string | var => exact ⟨fun _ hi => absurd hi List.not_mem_nil, trivial⟩
  | binary _ _ ihl ihr =>
    cases he with
    | binary hl hr =>
      obtain ⟨hleftCode, ha⟩ := ihl hl
      obtain ⟨hrightCode, hb⟩ := ihr hr
      refine ⟨List.forall_mem_append.2 ⟨List.forall_mem_append.2 ⟨hleftCode, hrightCode⟩, ?_⟩,
        trivial⟩
      exact List.forall_mem_singleton.2 ⟨ha, hb⟩

theorem Emits.written {s : Node} {k k' : Counters} {code : List Instruction}
    (h : Emits s k code k') (hs : s.Regular) : ∀ i ∈ code, i.Written := by
  induction h with
  | assign c =>
    cases hs with
    | assign he =>
      obtain ⟨hcode, ha⟩ := c.written he
      simpa [or_imp, forall_and] using ⟨hcode, ha⟩
  | block_nil => exact fun _ hi => absurd hi List.not_mem_nil
  | block_cons _ _ ih₁ ih₂ =>
    cases hs with
    | block hss =>
      obtain ⟨hs, hss⟩ := List.forall_mem_cons.1 hss
      exact List.forall_mem_append.2 ⟨ih₁ hs, ih₂ (.block hss)⟩
  | ifThen c _ ih =>
    cases hs with
    | ifThen hc _ ht =>
      obtain ⟨htest, ha⟩ := c.written hc
      simpa [or_imp, forall_and, Instruction.Written] using ⟨htest, ha, ih ht⟩
  | ifElse c _ _ ih₁ ih₂ =>
    cases hs with
    | ifElse hc _ ht _ he =>
      obtain ⟨htest, ha⟩ := c.written hc
      simpa [or_imp, forall_and, Instruction.Written] using ⟨htest, ha, ih₁ ht, ih₂ he⟩
  | whileLoop c _ ih =>
    cases hs with
    | whileLoop hc _ hb =>
      obtain ⟨htest, ha⟩ := c.written hc
      simpa [or_imp, forall_and, Instruction.Written] using ⟨htest, ha, ih hb⟩
  | forLoop _ c _ _ ih₁ ih₂ ih₃ =>
    cases hs with
    | forLoop _ hi hc _ hu _ hb =>
      obtain ⟨htest, ha⟩ := c.written hc
      simpa [or_imp, forall_and, Instruction.Written] using ⟨ih₁ hi, htest, ha, ih₂ hb, ih₃ hu⟩
  | ret => exact List.forall_mem_singleton.2 trivial
  | retValue c =>
    cases hs with
    | retValue he =>
      obtain ⟨hcode, ha⟩ := c.written he
      simpa [or_imp, forall_and] using ⟨hcode, ha⟩

/-- **Regular statements have code**, in which all integers have texts. -/
theorem generateAll_of_regular {ss : List Node} (h : ∀ s ∈ ss, s.Regular) :
    ∃ code, generateAll ss = .ok code ∧ ∀ i ∈ code, i.Written := by
  induction ss with
  | nil => exact ⟨[], rfl, fun _ hi => absurd hi List.not_mem_nil⟩
  | cons s ss ih =>
    obtain ⟨hs, hss⟩ := List.forall_mem_cons.1 h
    obtain ⟨first, k, hfirst, e⟩ := emits_of_isStatement hs.isStatement {}
    obtain ⟨more, hmore, hwritten⟩ := ih hss
    refine ⟨first ++ more, ?_, List.forall_mem_append.2 ⟨e.written hs, hwritten⟩⟩
    rw [generateAll, generate_of_emits hfirst, hmore]
    rfl

end ThreeAddress
