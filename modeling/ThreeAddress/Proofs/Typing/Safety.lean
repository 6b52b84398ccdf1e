import ThreeAddress.Proofs.Execution.Steps
import ThreeAddress.Proofs.Grammar.Exactness
import ThreeAddress.Proofs.Typing.Judgement

/-!
# Well-typed programs are safe

A program that the check accepts is run step by step, under any arithmetic in which an operation on
integers gives an integer and an operation with a float gives a number. An arithmetic has no
operation on strings and no zero test of strings: to apply one is a fault of its own.

* `Value.HasType`: the values of a type; a float variable may also hold an integer.
* `Fault.Admitted`: the faults that the check cannot exclude.
* `Safe`: the invariant of a run. Each variable has a value of the type in the table, and what is
  still to be run fits the table.

**Theorem (`execution_safe`).** In every state of a run the variables have values of their types,
and a run that fails reads a variable that has not been set, divides an integer by zero, or operates
on an integer that is beyond the floats.
-/

namespace ThreeAddress

/-! ## Values of types -/

/-- A number of either type. -/
inductive Number where
  | int (n : Int)
  | float (x : Float)

namespace Value

/-- The value that is a number. -/
def ofNumber : Number → Value
  | .int n => .int n
  | .float x => .float x

/-- The values of a type. -/
inductive HasType : Value → Ty → Prop
  | int {n : Int} : HasType (.int n) .int
  | number {a : Number} : HasType (.ofNumber a) .float
  | string {s : String} : HasType (.string s) .string

theorem hasType_float_int (n : Int) : HasType (.int n) .float := .number (a := .int n)

theorem hasType_float_float (x : Float) : HasType (.float x) .float := .number (a := .float x)

end Value

/-! ## Arithmetic -/

/-- How a run fails. -/
inductive Fault where
  | unset (name : String)
  | divisionByZero
  /-- An operation on a float and an integer that is too large to become one. -/
  | beyondFloats (n : Int)
  /-- An operation of which an operand is a string. -/
  | stringOperand
  /-- A string in the place of a condition. -/
  | stringCondition
  /-- A node in the place of an expression that is none. -/
  | noExpression

/-- The faults in a store that the check cannot exclude. -/
inductive Fault.Admitted (σ : Store) : Fault → Prop
  | unset {name : String} : σ name = none → Admitted σ (.unset name)
  | divisionByZero : Admitted σ .divisionByZero
  | beyondFloats {n : Int} : Folding.promote? n = none → Admitted σ (.beyondFloats n)

/-- What operations on numbers give. Of an integer and a float, the operation may give nothing if
the integer is beyond the floats. -/
structure Arithmetic where
  ints : Operator → Int → Int → Int
  floats : Operator → Float → Float → Number
  intFloat : Operator → Int → Float → Option Number
  floatInt : Operator → Float → Int → Option Number
  isZero : Number → Bool
  promote_of_intFloat : ∀ {op a y}, intFloat op a y = none → Folding.promote? a = none
  promote_of_floatInt : ∀ {op x b}, floatInt op x b = none → Folding.promote? b = none

namespace Arithmetic

/-- The outcome of an operation on an integer and a float, from the integer. -/
def mixed (n : Int) : Option Number → Except Fault Value
  | some a => .ok (.ofNumber a)
  | none => .error (.beyondFloats n)

/-- An operation on values. -/
def operate (A : Arithmetic) (op : Operator) : Value → Value → Except Fault Value
  | .int a, .int b =>
    if op = .div ∧ b = 0 then .error .divisionByZero else .ok (.int (A.ints op a b))
  | .float x, .float y => .ok (.ofNumber (A.floats op x y))
  | .int a, .float y => mixed a (A.intFloat op a y)
  | .float x, .int b => mixed b (A.floatInt op x b)
  | _, _ => .error .stringOperand

/-- The interpretation in which numbers are worked out by the arithmetic. -/
def interpretation (A : Arithmetic) : Interpretation Fault where
  operate := A.operate
  isZero
    | .int n => .ok (A.isZero (.int n))
    | .float x => .ok (A.isZero (.float x))
    | .string _ => .error .stringCondition
  unset := .unset
  meaningless := .noExpression

/-- Whether a comparison holds, from how its operands compare. -/
def comparison (op : Operator) (less equal greater : Bool) : Bool :=
  match op with
  | .eq => equal
  | .ne => !equal
  | .lt => less
  | .gt => greater
  | .le => less || equal
  | .ge => greater || equal
  | _ => false

/-- The arithmetic of folding, with comparisons that give one or zero. -/
def doublePrecision : Arithmetic where
  ints op a b := (Folding.intResult? op a b).getD (comparison op (a < b) (a == b) (a > b)).toInt
  floats := floats
  intFloat op a y := (Folding.promote? a).map fun x => floats op x y
  floatInt op x b := (Folding.promote? b).map fun y => floats op x y
  isZero
    | .int n => n == 0
    | .float x => x == 0
  promote_of_intFloat h := Option.map_eq_none_iff.1 h
  promote_of_floatInt h := Option.map_eq_none_iff.1 h
where
  floats (op : Operator) (x y : Float) : Number :=
    match Folding.floatResult? op x y with
    | some z => .float z
    | none => .int (comparison op (x < y) (x == y) (x > y)).toInt

end Arithmetic

/-! ## Evaluation -/

/-- The result has the type, or it is one of the faults that the check cannot exclude. -/
def Yields (σ : Store) (result : Except Fault Value) (type : Ty) : Prop :=
  match result with
  | .ok v => v.HasType type
  | .error f => f.Admitted σ

/-- Each variable that has been set has a value of the type in the table. -/
def Consistent (G : Symbols) (σ : Store) : Prop :=
  ∀ x v, σ x = some v → ∃ type, G.find? x = some type ∧ v.HasType type

variable {A : Arithmetic} {G : Symbols} {σ : Store}

theorem mixed_yields {n : Int} {a : Option Number} (h : a = none → Folding.promote? n = none) :
    Yields σ (Arithmetic.mixed n a) .float := by
  cases a with
  | none => exact .beyondFloats (h rfl)
  | some a => exact .number

theorem ints_yields {op : Operator} {a b : Int} {type : Ty} (htype : type = .int ∨ type = .float) :
    Yields σ (A.operate op (.int a) (.int b)) type := by
  rw [Arithmetic.operate]
  by_cases hzero : op = .div ∧ b = 0
  · rw [if_pos hzero]
    exact .divisionByZero
  · rw [if_neg hzero]
    rcases htype with rfl | rfl
    · exact .int
    · exact Value.hasType_float_int _

/-- An operation on numbers gives a number. -/
theorem numbers_yields (op : Operator) (a b : Number) :
    Yields σ (A.operate op (.ofNumber a) (.ofNumber b)) .float := by
  cases a with
  | int a =>
    cases b with
    | int b => exact ints_yields (.inr rfl)
    | float y => exact mixed_yields A.promote_of_intFloat
  | float x =>
    cases b with
    | int b => exact mixed_yields A.promote_of_floatInt
    | float y => exact .number

theorem operationType_eq_ok {op : Operator} {a b type : Ty}
    (h : Typing.operationType op a b = .ok type) :
    (a = .int ∧ b = .int ∧ type = .int) ∨
      (a.isNumeric = true ∧ b.isNumeric = true ∧ type = .float) := by
  unfold Typing.operationType at h
  split_ifs at h with hmismatch hint hnumeric
  · cases h
    simp only [Bool.and_eq_true, decide_eq_true_eq] at hint
    exact .inl ⟨hint.1, hint.2, rfl⟩
  · cases h
    simp only [Bool.and_eq_true] at hnumeric
    exact .inr ⟨hnumeric.1, hnumeric.2, rfl⟩

theorem Value.HasType.number_of_numeric {v : Value} {type : Ty} (h : v.HasType type)
    (htype : type.isNumeric = true) : ∃ a, v = .ofNumber a := by
  cases h with
  | @int n => exact ⟨.int n, rfl⟩
  | @number a => exact ⟨a, rfl⟩
  | string => cases htype

/-- **An operation on values of types that go together gives a value of its type.** -/
theorem operate_yields {op : Operator} {a b type : Ty} {v w : Value}
    (h : Typing.operationType op a b = .ok type) (hv : v.HasType a) (hw : w.HasType b) :
    Yields σ (A.operate op v w) type := by
  rcases operationType_eq_ok h with ⟨rfl, rfl, rfl⟩ | ⟨ha, hb, rfl⟩
  · cases hv
    cases hw
    exact ints_yields (.inl rfl)
  · obtain ⟨a, rfl⟩ := hv.number_of_numeric ha
    obtain ⟨b, rfl⟩ := hw.number_of_numeric hb
    exact numbers_yields op a b

theorem eval_yields {e : Node} {type : Ty} (h : Typed G e type)
    (hσ : Consistent G σ) : Yields σ (eval A.interpretation σ e) type := by
  induction h with
  | int => exact .int
  | float => exact Value.hasType_float_float _
  | string => exact .string
  | @var name l type hx =>
    rw [eval]
    cases hv : σ name with
    | none => exact .unset hv
    | some v =>
      obtain ⟨type', hx', hvalue⟩ := hσ name v hv
      rw [hx] at hx'
      cases hx'
      exact hvalue
  | @binary left right op l a b type _ _ hop ihl ihr =>
    rw [eval]
    cases hl : eval A.interpretation σ left with
    | error f =>
      rw [hl] at ihl
      exact ihl
    | ok v =>
      rw [hl] at ihl
      cases hr : eval A.interpretation σ right with
      | error f =>
        rw [hr] at ihr
        exact ihr
      | ok w =>
        rw [hr] at ihr
        exact operate_yields hop ihl ihr

theorem eval_hasType {e : Node} {type : Ty} {v : Value} (h : Typed G e type)
    (hσ : Consistent G σ) (hv : eval A.interpretation σ e = .ok v) : v.HasType type := by
  have hyields := eval_yields (A := A) h hσ
  rw [hv] at hyields
  exact hyields

theorem eval_admitted {e : Node} {type : Ty} {f : Fault} (h : Typed G e type)
    (hσ : Consistent G σ) (hf : eval A.interpretation σ e = .error f) : f.Admitted σ := by
  have hyields := eval_yields (A := A) h hσ
  rw [hf] at hyields
  exact hyields

/-- A condition that is a number is zero or not, unless it has no value. -/
theorem evalZero_admitted {e : Node} {type : Ty} {f : Fault} (h : Typed G e type)
    (hnumeric : type.isNumeric = true) (hσ : Consistent G σ)
    (hf : evalZero A.interpretation σ e = .error f) : f.Admitted σ := by
  unfold evalZero at hf
  cases heval : eval A.interpretation σ e with
  | error g =>
    rw [heval] at hf
    cases hf
    exact eval_admitted h hσ heval
  | ok v =>
    obtain ⟨a, rfl⟩ := (eval_hasType h hσ heval).number_of_numeric hnumeric
    rw [heval] at hf
    cases a <;> cases hf

/-! ## Stores -/

theorem Consistent.empty (G : Symbols) : Consistent G Store.empty := fun _ _ h => nomatch h

/-- A value of its type can be put into a variable, and an integer into a float variable. -/
theorem Consistent.set {name : String} {target type : Ty} {v : Value}
    (hσ : Consistent G σ) (htarget : G.find? name = some target)
    (haccepts : Typing.accepts target type = true) (hv : v.HasType type) :
    Consistent G (σ.set name v) := by
  intro x w hw
  by_cases hx : x = name
  · subst hx
    rw [Store.set_self] at hw
    cases hw
    refine ⟨target, htarget, ?_⟩
    unfold Typing.accepts at haccepts
    simp only [Bool.or_eq_true, Bool.and_eq_true, decide_eq_true_eq] at haccepts
    rcases haccepts with rfl | ⟨rfl, rfl⟩
    · exact hv
    · cases hv
      exact Value.hasType_float_int _
  · rw [Store.set_ne σ v hx] at hw
    exact hσ x w hw

/-! ## Runs -/

namespace Execution

/-- The store of a state. -/
def State.store {F : Type} : State F → Store
  | .running _ σ => σ
  | .done _ σ => σ

/-- What every state of a well-typed run is like. -/
structure Safe (G : Symbols) (s : State Fault) : Prop where
  consistent : Consistent G s.store
  fits : ∀ {todo σ}, s = .running todo σ → ∀ n ∈ todo, Fits G n
  admitted : ∀ {f σ}, s = .done (.failed f) σ → f.Admitted σ

theorem Safe.running {todo : List Node} (hσ : Consistent G σ)
    (htodo : ∀ n ∈ todo, Fits G n) : Safe G (.running todo σ) where
  consistent := hσ
  fits := by
    intro _ _ h
    cases h
    exact htodo
  admitted := nofun

theorem Safe.failed {f : Fault} (hσ : Consistent G σ) (hf : f.Admitted σ) :
    Safe G (.done (.failed f) σ) where
  consistent := hσ
  fits := nofun
  admitted := by
    intro _ _ h
    cases h
    exact hf

theorem Safe.ended {o : Outcome Fault} (hσ : Consistent G σ)
    (ho : ∀ f, o ≠ .failed f) : Safe G (.done o σ) where
  consistent := hσ
  fits := nofun
  admitted := by
    intro f _ h
    cases h
    exact absurd rfl (ho f)

/-- **A step keeps a run safe.** -/
theorem safe_step {s : State Fault} (h : Safe G s) : Safe G (step A.interpretation s) := by
  cases s with
  | done o σ => exact h
  | running todo σ =>
    have hσ : Consistent G σ := h.consistent
    cases todo with
    | nil => exact .ended hσ fun _ ho => by cases ho
    | cons n todo =>
      obtain ⟨hn, htodo⟩ := List.forall_mem_cons.1 (h.fits rfl)
      cases hn with
      | assign hv htarget haccepts =>
        rw [step]
        split
        · next v heval =>
          exact .running (hσ.set htarget haccepts (eval_hasType hv hσ heval)) htodo
        · next f heval => exact .failed hσ (eval_admitted hv hσ heval)
      | ifThen hc hnumeric ht =>
        rw [step]
        split
        · exact .running hσ htodo
        · exact .running hσ (List.forall_mem_cons.2 ⟨ht, htodo⟩)
        · next f heval => exact .failed hσ (evalZero_admitted hc hnumeric hσ heval)
      | ifElse hc hnumeric ht he =>
        rw [step]
        split
        · exact .running hσ (List.forall_mem_cons.2 ⟨he, htodo⟩)
        · exact .running hσ (List.forall_mem_cons.2 ⟨ht, htodo⟩)
        · next f heval => exact .failed hσ (evalZero_admitted hc hnumeric hσ heval)
      | @forLoop i c u b l type hi hc hnumeric hu hb =>
        have hround : Fits G (.block [b, u] l) :=
          .block (List.forall_mem_cons.2 ⟨hb, List.forall_mem_singleton.2 hu⟩)
        have hloop : Fits G (.rounds c u b l) := .whileLoop hc hnumeric hround
        have hblock : Fits G (.block [i, .rounds c u b l] l) :=
          .block (List.forall_mem_cons.2 ⟨hi, List.forall_mem_singleton.2 hloop⟩)
        exact .running hσ (List.forall_mem_cons.2 ⟨hblock, htodo⟩)
      | @whileLoop c b l type hc hnumeric hb =>
        have hloop : Fits G (.whileLoop c b l) := .whileLoop hc hnumeric hb
        rw [step]
        split
        · exact .running hσ htodo
        · exact .running hσ (List.forall_mem_cons.2 ⟨hb, List.forall_mem_cons.2 ⟨hloop, htodo⟩⟩)
        · next f heval => exact .failed hσ (evalZero_admitted hc hnumeric hσ heval)
      | ret => exact .ended hσ fun _ ho => by cases ho
      | retValue hv =>
        rw [step]
        split
        · exact .ended hσ fun _ ho => by cases ho
        · next f heval => exact .failed hσ (eval_admitted hv hσ heval)
      | @block ss l hss =>
        cases ss with
        | nil => exact .running hσ htodo
        | cons s ss =>
          obtain ⟨hs, hss⟩ := List.forall_mem_cons.1 hss
          exact .running hσ
            (List.forall_mem_cons.2 ⟨hs, List.forall_mem_cons.2 ⟨.block hss, htodo⟩⟩)

/-- **Well-typed programs are safe.** -/
theorem execution_safe (A : Arithmetic) {source file : String} {program : List Node}
    {taken : List Token} {lines : List String} {notices notices' : List Notice} {G : Symbols}
    {s : State Fault} (hparse : Grammar.ofSource source file = (.ok program, taken))
    (hcheck : typecheck lines program notices = .ok G notices')
    (hrun : Leads (step A.interpretation) (.running program Store.empty) s) :
    (∀ x v, s.store x = some v → ∃ type, G.find? x = some type ∧ v.HasType type) ∧
      ∀ f σ, s = .done (.failed f) σ → f.Admitted σ := by
  have hfits := Typing.fits_of_typecheck (Grammar.isStatement_of_ofSource hparse) hcheck
  have hsafe : Safe G s := hrun.invariant (fun _ => safe_step) (.running (.empty G) hfits)
  exact ⟨hsafe.consistent, fun _ _ => hsafe.admitted⟩

/-- The tokens of `float x=6/2;`. -/
def quotientTokens : List Token :=
  [⟨.floatType, "float", some ⟨"", 1, 1, 0⟩⟩, ⟨.identifier, "x", some ⟨"", 1, 7, 6⟩⟩,
    ⟨.assign, "=", some ⟨"", 1, 8, 7⟩⟩, ⟨.intLiteral, "6", some ⟨"", 1, 9, 8⟩⟩,
    ⟨.divide, "/", some ⟨"", 1, 10, 9⟩⟩, ⟨.intLiteral, "2", some ⟨"", 1, 11, 10⟩⟩,
    ⟨.semicolon, ";", some ⟨"", 1, 12, 11⟩⟩, ⟨.endOfInput, "", some ⟨"", 1, 13, 12⟩⟩]

/-- The tree of `float x=6/2;`. -/
def quotient : List Node :=
  [.assign "x" (.binary (.int 6 (some ⟨"", 1, 9, 8⟩)) .div (.int 2 (some ⟨"", 1, 11, 10⟩))
    (some ⟨"", 1, 10, 9⟩)) (some .float) (some ⟨"", 1, 1, 0⟩)]

theorem quotient_safe :
    ∃ taken notices, Grammar.ofSource "float x=6/2;" "" = (.ok quotient, taken) ∧
      typecheck [] quotient [] = .ok ⟨[("x", .float)]⟩ notices ∧
      Leads (step Arithmetic.doublePrecision.interpretation) (.running quotient Store.empty)
        (.done .ended (Store.empty.set "x" (.int 3))) ∧
      Value.HasType (.int 3) .float := by
  have hscan : (Scan.ofSource "float x=6/2;" "").result = .ok quotientTokens := by decide
  have hread : (Grammar.ofSource "float x=6/2;" "").1 = .ok quotient :=
    (Grammar.ofSource_eq_ofTokens hscan).trans rfl
  have hparse : Grammar.ofSource "float x=6/2;" "" =
      (.ok quotient, (Grammar.ofSource "float x=6/2;" "").2) := by rw [← hread]
  have hcheck : ∃ notices, typecheck [] quotient [] = .ok ⟨[("x", .float)]⟩ notices := ⟨_, rfl⟩
  obtain ⟨notices, hcheck⟩ := hcheck
  have hrun : Leads (step Arithmetic.doublePrecision.interpretation) (.running quotient Store.empty)
      (.done .ended (Store.empty.set "x" (.int 3))) := ⟨2, rfl⟩
  obtain ⟨type, htype, hvalue⟩ :=
    (execution_safe .doublePrecision hparse hcheck hrun).1 "x" (.int 3) (Store.set_self _ _ _)
  cases htype
  exact ⟨_, _, hparse, hcheck, hrun, hvalue⟩

end Execution

end ThreeAddress
