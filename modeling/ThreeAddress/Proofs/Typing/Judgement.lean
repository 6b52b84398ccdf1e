import ThreeAddress.Compilation
import ThreeAddress.Proofs.Steps
import ThreeAddress.Proofs.Tree.Shape

/-!
# Typing as a judgement

What the check has found out about a program that it accepts. The check walks through the program
once, while its table grows; the judgements speak of one table, and they stay true in every table
that has more entries. So what was checked under the table of the moment holds under the last one.

* `Symbols.Extends`: one table has all entries of another.
* `Typed`: the type of an expression under a table.
* `Fits`: a statement is well typed under a table.
* `check_meets`: a statement that is accepted fits the table that it leaves behind.
-/

namespace ThreeAddress

/-! ## Tables -/

namespace Symbols

theorem lookup_setEntry (name x : String) (type : Ty) (entries : List (String × Ty)) :
    (setEntry name type entries).lookup x =
      if x = name then some type else entries.lookup x := by
  induction entries with
  | nil =>
    by_cases hx : x = name
    · subst hx
      simp [setEntry]
    · have hbeq : (x == name) = false := beq_false_of_ne hx
      simp [setEntry, List.lookup_cons, hbeq, hx]
  | cons entry rest ih =>
    obtain ⟨n, t⟩ := entry
    by_cases hn : n = name
    · subst hn
      rw [setEntry, if_pos rfl, List.lookup_cons, List.lookup_cons]
      by_cases hx : x = n
      · simp [hx]
      · have hbeq : (x == n) = false := beq_false_of_ne hx
        simp [hbeq, hx]
    · rw [setEntry, if_neg hn, List.lookup_cons, List.lookup_cons, ih]
      by_cases hx : x = n
      · subst hx
        simp [hn]
      · have hbeq : (x == n) = false := beq_false_of_ne hx
        simp [hbeq]

theorem find?_set (s : Symbols) (name x : String) (type : Ty) :
    (s.set name type).find? x = if x = name then some type else s.find? x :=
  lookup_setEntry name x type s.entries

/-- The second table has all entries of the first. -/
def Extends (s s' : Symbols) : Prop := ∀ x type, s.find? x = some type → s'.find? x = some type

theorem Extends.refl (s : Symbols) : Extends s s := fun _ _ hx => hx

theorem Extends.trans {s s' s'' : Symbols} (h : Extends s s') (h' : Extends s' s'') :
    Extends s s'' :=
  fun x type hx => h' x type (h x type hx)

theorem Extends.set {s : Symbols} {name : String} (h : s.find? name = none) (type : Ty) :
    Extends s (s.set name type) := by
  intro x type' hx
  rw [find?_set, if_neg ?_]
  · exact hx
  · intro heq
    subst heq
    rw [h] at hx
    cases hx

end Symbols

open Symbols

/-! ## Judgements -/

/-- The expression has the type under the table. -/
inductive Typed (s : Symbols) : Node → Ty → Prop
  | int {n : Int} {l : Option Location} : Typed s (.int n l) .int
  | float {x : Float} {l : Option Location} : Typed s (.float x l) .float
  | string {text : String} {l : Option Location} : Typed s (.string text l) .string
  | var {name : String} {l : Option Location} {type : Ty} :
      s.find? name = some type → Typed s (.var name l) type
  | binary {left right : Node} {op : Operator} {l : Option Location} {a b type : Ty} :
      Typed s left a → Typed s right b → Typing.operationType op a b = .ok type →
      Typed s (.binary left op right l) type

/-- The statement is well typed under the table. -/
inductive Fits (s : Symbols) : Node → Prop
  | assign {name : String} {value : Node} {declares : Option Ty} {l : Option Location}
      {target type : Ty} :
      Typed s value type → s.find? name = some target → Typing.accepts target type = true →
      Fits s (.assign name value declares l)
  | ifThen {c t : Node} {l : Option Location} {type : Ty} :
      Typed s c type → type.isNumeric = true → Fits s t → Fits s (.ifThen c t l)
  | ifElse {c t e : Node} {l : Option Location} {type : Ty} :
      Typed s c type → type.isNumeric = true → Fits s t → Fits s e → Fits s (.ifElse c t e l)
  | forLoop {i c u b : Node} {l : Option Location} {type : Ty} :
      Fits s i → Typed s c type → type.isNumeric = true → Fits s u → Fits s b →
      Fits s (.forLoop i c u b l)
  | whileLoop {c b : Node} {l : Option Location} {type : Ty} :
      Typed s c type → type.isNumeric = true → Fits s b → Fits s (.whileLoop c b l)
  | ret {l : Option Location} : Fits s (.ret l)
  | retValue {value : Node} {l : Option Location} {type : Ty} :
      Typed s value type → Fits s (.retValue value l)
  | block {ss : List Node} {l : Option Location} : (∀ n ∈ ss, Fits s n) → Fits s (.block ss l)

theorem Typed.mono {s s' : Symbols} {e : Node} {type : Ty} (h : Typed s e type)
    (hs : Extends s s') : Typed s' e type := by
  induction h with
  | int => exact .int
  | float => exact .float
  | string => exact .string
  | var hx => exact .var (hs _ _ hx)
  | binary _ _ hop ihl ihr => exact .binary ihl ihr hop

theorem Fits.mono {s s' : Symbols} {n : Node} (h : Fits s n) (hs : Extends s s') : Fits s' n := by
  induction h with
  | assign hv hx ha => exact .assign (hv.mono hs) (hs _ _ hx) ha
  | ifThen hc hn _ iht => exact .ifThen (hc.mono hs) hn iht
  | ifElse hc hn _ _ iht ihe => exact .ifElse (hc.mono hs) hn iht ihe
  | forLoop _ hc hn _ _ ihi ihu ihb => exact .forLoop ihi (hc.mono hs) hn ihu ihb
  | whileLoop hc hn _ ihb => exact .whileLoop (hc.mono hs) hn ihb
  | ret => exact .ret
  | retValue hv => exact .retValue (hv.mono hs)
  | block _ ih => exact .block ih

/-! ## The check -/

namespace Typing

variable {lines : List String} {st : State}

/-- Of two steps that may fail, the second comes to a result only behind one of the first. -/
theorem bind_eq_ok {ε α β : Type} {x : Except ε α} {f : α → Except ε β} {b : β}
    (h : (x >>= f) = .ok b) : ∃ a, x = .ok a ∧ f a = .ok b := by
  cases x with
  | ok a => exact ⟨a, rfl, h⟩
  | error e => cases h

theorem typed_of_typeOf {s : Symbols} {e : Node} {type : Ty} (he : e.IsExpression)
    (h : typeOf lines s e = .ok type) : Typed s e type := by
  induction he generalizing type with
  | int => cases h; exact .int
  | float => cases h; exact .float
  | string => cases h; exact .string
  | @var name l =>
    rw [typeOf] at h
    split at h
    · next hx =>
      cases h
      exact .var hx
    · cases h
  | @binary left right op l _ _ ihl ihr =>
    rw [typeOf] at h
    obtain ⟨a, hl, h⟩ := bind_eq_ok h
    obtain ⟨b, hr, h⟩ := bind_eq_ok h
    cases hop : operationType op a b with
    | error cause =>
      rw [hop] at h
      cases h
    | ok type' =>
      rw [hop] at h
      cases h
      exact .binary (ihl hl) (ihr hr) hop

/-- Typing an expression declares nothing. -/
theorem typed_meets {e : Node} (he : e.IsExpression) (st : State) :
    Meets (typed lines e) st (fun type st' => st' = st ∧ Typed st.symbols e type)
      fun _ _ => True := by
  unfold typed
  refine .bind (.ok rfl ?_)
  split
  · next h => exact .pure ⟨rfl, typed_of_typeOf he h⟩
  · exact .throw trivial

/-- A condition is a number. -/
theorem condition_meets {construct : String} {e : Node} (he : e.IsExpression) (st : State) :
    Meets (condition lines construct e) st
      (fun _ st' => st' = st ∧ ∃ type, Typed st.symbols e type ∧ type.isNumeric = true)
      fun _ _ => True := by
  unfold condition
  refine (typed_meets he st).andThen ?_ fun _ _ _ => trivial
  intro type st' hmeets
  obtain ⟨rfl, htype⟩ := hmeets
  by_cases hn : type.isNumeric = true
  · rw [if_pos hn]
    exact .pure ⟨rfl, type, htype, hn⟩
  · rw [if_neg hn]
    exact .throw trivial

/-- What stands behind a condition is checked in the same table. -/
theorem condition_bind {construct : String} {e : Node} (he : e.IsExpression) {st : State}
    {f : Unit → Check Unit} {good : Unit → State → Prop}
    (hf : ∀ type, Typed st.symbols e type → type.isNumeric = true →
      Meets (f ()) st good fun _ _ => True) :
    Meets (condition lines construct e >>= f) st good fun _ _ => True := by
  refine (condition_meets he st).andThen ?_ fun _ _ _ => trivial
  intro _ st' hmeets
  obtain ⟨rfl, type, htype, hnumeric⟩ := hmeets
  exact hf type htype hnumeric

/-- A declaration adds an entry. -/
theorem declare_meets {name : String} {type : Ty} {l : Option Location} (st : State) :
    Meets (declare lines name type l) st (fun _ st' => Extends st.symbols st'.symbols)
      fun _ _ => True := by
  unfold declare
  refine .bind (.ok rfl ?_)
  split
  · exact .throw trivial
  · next h => exact .ok rfl (Extends.set h type)

/-- An assignment finds the entry of its target, and the value goes with it. -/
theorem assign_meets {name : String} {value : Ty} {l : Option Location} (st : State) :
    Meets (assign lines name value l) st
      (fun _ st' => st'.symbols = st.symbols ∧
        ∃ target, st.symbols.find? name = some target ∧ accepts target value = true)
      fun _ _ => True := by
  unfold assign
  refine .bind (.ok rfl ?_)
  split
  · exact .throw trivial
  · next target h =>
    by_cases hwidened : (target = .float && value = .int) = true
    · rw [if_pos hwidened]
      refine .ok rfl ⟨rfl, target, h, ?_⟩
      rw [accepts, hwidened, Bool.or_true]
    · rw [if_neg hwidened]
      by_cases heq : target = value
      · rw [if_pos heq]
        refine .pure ⟨rfl, target, h, ?_⟩
        rw [accepts, decide_eq_true heq, Bool.true_or]
      · rw [if_neg heq]
        exact .throw trivial

/-! ## Statements -/

/-- The statement fits the table that the check leaves behind, which extends the one before. -/
def Leaves (x : Check Unit) (st : State) (n : Node) : Prop :=
  Meets x st (fun _ st' => Extends st.symbols st'.symbols ∧ Fits st'.symbols n) fun _ _ => True

section Leaves

variable {x : Check Unit} {f : Unit → Check Unit} {st : State} {n : Node}
  {good : Unit → State → Prop}

/-- What stands behind a statement is checked in a table that the statement fits. -/
theorem Leaves.bind (hx : Leaves x st n)
    (hf : ∀ st', Extends st.symbols st'.symbols → Fits st'.symbols n →
      Meets (f ()) st' good fun _ _ => True) :
    Meets (x >>= f) st good fun _ _ => True := by
  refine Meets.andThen hx ?_ fun _ _ _ => trivial
  intro _ st' hmeets
  exact hf st' hmeets.1 hmeets.2

theorem Leaves.last (hx : Leaves x st n)
    (h : ∀ st', Extends st.symbols st'.symbols → Fits st'.symbols n → good () st') :
    Meets x st good fun _ _ => True := by
  refine Meets.mono hx ?_ fun _ _ _ => trivial
  intro _ st' hmeets
  exact h st' hmeets.1 hmeets.2

end Leaves

/-- Statements in order fit the table that the last of them leaves behind. -/
theorem checkAll_leaves {ss : List Node} (h : ∀ n ∈ ss, ∀ st, Leaves (check lines n) st n)
    (st : State) :
    Meets (checkAll lines ss) st
      (fun _ st' => Extends st.symbols st'.symbols ∧ ∀ n ∈ ss, Fits st'.symbols n)
      fun _ _ => True := by
  induction ss generalizing st with
  | nil => exact .pure ⟨.refl _, fun _ hn => absurd hn List.not_mem_nil⟩
  | cons n ss ih =>
    obtain ⟨hn, hss⟩ := List.forall_mem_cons.1 h
    rw [checkAll]
    refine (hn st).bind ?_
    intro st₁ hext₁ hfits₁
    refine (ih hss st₁).mono ?_ fun _ _ h => h
    intro _ st₂ hmeets
    obtain ⟨hext₂, hfits₂⟩ := hmeets
    exact ⟨hext₁.trans hext₂, List.forall_mem_cons.2 ⟨hfits₁.mono hext₂, hfits₂⟩⟩

/-- The value of an assignment is typed before its target is declared. -/
theorem assign_leaves {name : String} {value : Node} {declares : Option Ty}
    {l : Option Location} (he : value.IsExpression) (st : State) :
    Leaves (check lines (.assign name value declares l)) st (.assign name value declares l) := by
  unfold Leaves
  rw [check]
  refine (typed_meets he st).andThen ?_ fun _ _ _ => trivial
  intro type st₁ hmeets
  obtain ⟨rfl, htype⟩ := hmeets
  have hassign : ∀ st₂ : State, Extends st₁.symbols st₂.symbols →
      Meets (assign lines name type l) st₂
        (fun _ st' => Extends st₁.symbols st'.symbols ∧
          Fits st'.symbols (.assign name value declares l))
        fun _ _ => True := by
    intro st₂ hext
    refine (assign_meets st₂).mono ?_ fun _ _ h => h
    intro _ st₃ hmeets
    obtain ⟨hsame, target, htarget, haccepts⟩ := hmeets
    rw [hsame]
    exact ⟨hext, .assign (htype.mono hext) htarget haccepts⟩
  cases declares with
  | none => exact hassign st₁ (.refl _)
  | some declared =>
    refine (declare_meets st₁).andThen ?_ fun _ _ _ => trivial
    intro _ st₂ hext
    exact hassign st₂ hext

theorem retValue_leaves {value : Node} {l : Option Location} (he : value.IsExpression)
    (st : State) : Leaves (check lines (.retValue value l)) st (.retValue value l) := by
  unfold Leaves
  rw [check]
  refine (typed_meets he st).andThen ?_ fun _ _ _ => trivial
  intro type st₁ hmeets
  obtain ⟨rfl, htype⟩ := hmeets
  by_cases hunknown : type = .unknown
  · rw [if_pos hunknown]
    exact .throw trivial
  · rw [if_neg hunknown]
    exact .pure ⟨.refl _, .retValue htype⟩

/-- **A statement fits the table that its check leaves behind.** -/
theorem check_leaves {n : Node} (hn : n.IsStatement) (st : State) :
    Leaves (check lines n) st n := by
  induction hn generalizing st with
  | assign he => exact assign_leaves he st
  | ret => exact .pure ⟨.refl _, .ret⟩
  | retValue he => exact retValue_leaves he st
  | @block ss l hss ih =>
    unfold Leaves
    rw [check]
    refine (checkAll_leaves ih st).mono ?_ fun _ _ h => h
    intro _ st' hmeets
    obtain ⟨hext, hfits⟩ := hmeets
    exact ⟨hext, .block hfits⟩
  | @ifThen c t l hc _ iht =>
    unfold Leaves
    rw [check]
    refine condition_bind hc ?_
    intro type htype hnumeric
    refine (iht st).last ?_
    intro st₁ hext hfits
    exact ⟨hext, .ifThen (htype.mono hext) hnumeric hfits⟩
  | @ifElse c t e l hc _ _ iht ihe =>
    unfold Leaves
    rw [check]
    refine condition_bind hc ?_
    intro type htype hnumeric
    refine (iht st).bind ?_
    intro st₁ hext₁ hfits₁
    refine (ihe st₁).last ?_
    intro st₂ hext₂ hfits₂
    have hext := hext₁.trans hext₂
    exact ⟨hext, .ifElse (htype.mono hext) hnumeric (hfits₁.mono hext₂) hfits₂⟩
  | @whileLoop c b l hc _ ihb =>
    unfold Leaves
    rw [check]
    refine condition_bind hc ?_
    intro type htype hnumeric
    refine (ihb st).last ?_
    intro st₁ hext hfits
    exact ⟨hext, .whileLoop (htype.mono hext) hnumeric hfits⟩
  | @forLoop i c u b l _ hc _ _ ihi ihu ihb =>
    unfold Leaves
    rw [check]
    -- The step is checked before the body.
    refine (ihi st).bind ?_
    intro st₁ hext₁ hfits₁
    refine condition_bind hc ?_
    intro type htype hnumeric
    refine (ihu st₁).bind ?_
    intro st₂ hext₂ hfits₂
    refine (ihb st₂).last ?_
    intro st₃ hext₃ hfits₃
    have hext := hext₂.trans hext₃
    exact ⟨hext₁.trans hext, .forLoop (hfits₁.mono hext) (htype.mono hext) hnumeric
      (hfits₂.mono hext₃) hfits₃⟩

/-- **What the check accepts fits its last table.** -/
theorem fits_of_typecheck {ss : List Node} {notices notices' : List Notice} {G : Symbols}
    (hss : ∀ n ∈ ss, n.IsStatement) (h : typecheck lines ss notices = .ok G notices') :
    ∀ n ∈ ss, Fits G n := by
  have hall : ∀ n ∈ ss, ∀ st, Leaves (check lines n) st n :=
    fun n hn st => check_leaves (hss n hn) st
  unfold typecheck tabulate run at h
  cases hcheck : checkAll lines ss { notices } with
  | ok u st =>
    rw [hcheck] at h
    cases h
    exact ((checkAll_leaves hall { notices }).of_ok hcheck).2
  | error e st =>
    rw [hcheck] at h
    cases h

end Typing

end ThreeAddress
