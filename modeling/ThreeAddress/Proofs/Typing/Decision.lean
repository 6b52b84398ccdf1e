import ThreeAddress.Proofs.Typing.Growth

/-!
# What the check decides

The check walks through a statement with a table that grows, and stops at the first thing that it
does not allow. What it decides is said without the walk: the occurrences are admitted, and the nodes
are well typed under the table that they lead to.

* `typeOf_eq_ok_iff`: the type of an expression under the table of the moment.
* `Decides`: a step of the check succeeds iff its occurrences are admitted and a property holds under
  the table that they lead to, and then it gives certain notices; one rule for each way to build a
  step.
* `check_decides`: the check of a statement.

A step that has been decided stays decided in the tables that come later (`Decides.later`), because a
node depends on the variables in it only, and those are in the table when the node has been checked.
-/

namespace ThreeAddress

namespace Typing

open Symbols

variable {lines : List String} {s : Symbols} {e : Node} {G G' : String → Option Ty}

/-! ## Expressions -/

theorem operationType_eq_ok_iff {op : Operator} {a b type : Ty} :
    operationType op a b = .ok type ↔ (a = .int ∨ a = .float) ∧ (b = .int ∨ b = .float) ∧
      (if a = .int ∧ b = .int then .int else .float) = type := by
  unfold operationType
  cases a <;> cases b <;> simp [Ty.isNumeric]
  split_ifs <;> nofun

/-- **The type of an expression** under the table of the moment is the one of the rule. -/
theorem typeOf_eq_ok_iff (he : e.IsExpression) {type : Ty} :
    typeOf lines s e = .ok type ↔ s.Admits e.occurrences ∧ (∀ m ∈ e.parts, Sound s.find? m) ∧
      e.typeUnder s.find? = some type := by
  induction he generalizing type with
  | int | float | string => simp [typeOf, Node.occurrences, Admits, Node.parts, Sound, Node.typeUnder]
  | @var name l =>
    cases h : s.find? name <;>
      simp [typeOf, Node.occurrences, Admits, Node.parts, Sound, Node.typeUnder, h]
  | @binary left right op l hl hr ihl ihr =>
    have hafter := (admits_of_use (s := s) hl.use).2
    rw [typeOf, Node.occurrences, admits_append, hafter, Node.parts, List.forall_mem_cons,
      List.forall_mem_append, Node.typeUnder, Sound, Node.isNumber_iff, Node.isNumber_iff]
    constructor
    · intro h
      obtain ⟨a, ha, h⟩ := bind_eq_ok h
      obtain ⟨b, hb, h⟩ := bind_eq_ok h
      obtain ⟨hleft, hleftSound, hleftType⟩ := ihl.1 ha
      obtain ⟨hright, hrightSound, hrightType⟩ := ihr.1 hb
      obtain ⟨hanum, hbnum, htype⟩ := operationType_eq_ok_iff.1 (mapError_eq_ok_iff.1 h)
      refine ⟨⟨hleft, hright⟩, ⟨⟨⟨a, hleftType, hanum⟩, b, hrightType, hbnum⟩, hleftSound,
        hrightSound⟩, ?_⟩
      simpa only [hleftType, hrightType, Option.some.injEq] using htype
    · rintro ⟨⟨hleft, hright⟩, ⟨⟨⟨a, hleftType, hanum⟩, b, hrightType, hbnum⟩, hleftSound,
        hrightSound⟩, htype⟩
      simp only [hleftType, hrightType, Option.some.injEq] at htype
      rw [ihl.2 ⟨hleft, hleftSound, hleftType⟩, ihr.2 ⟨hright, hrightSound, hrightType⟩]
      exact mapError_eq_ok_iff.2 (operationType_eq_ok_iff.2 ⟨hanum, hbnum, htype⟩)

/-- The notices on a program are informative. -/
theorem level_of_widening? {n : Node} {notice : Notice} (h : widening? G n = some notice) :
    notice.level = .info := by
  cases n with
  | assign =>
    rw [widening?] at h
    split_ifs at h
    cases h
    rfl
  | binary | int | float | string | var | ifThen | ifElse | forLoop | whileLoop | ret | retValue
  | block | bare => cases h

/-! ## Decisions -/

/-- The step succeeds iff the occurrences are admitted and the property holds under the table that
they lead to. Then it leaves this table behind and gives the notices. -/
structure Decides {α : Type} (x : Check α) (os : List Occurrence)
    (P : (String → Option Ty) → Prop) (W : (String → Option Ty) → List Notice) : Prop where
  run : ∀ st : State, Meets x st
    (fun _ st' => st.symbols.Admits os ∧ st'.symbols = st.symbols.after os ∧
      P st'.symbols.find? ∧ st'.notices = st.notices ++ W st'.symbols.find?)
    fun _ _ => ¬ (st.symbols.Admits os ∧ P (st.symbols.after os).find?)
  /-- What is decided depends on the variables that occur only. -/
  congr : ∀ G G', AgreeOn os G G' → (P G ↔ P G') ∧ W G = W G'

namespace Decides

variable {α β : Type} {x : Check α} {f : α → Check β} {os os' : List Occurrence}
  {P P' : (String → Option Ty) → Prop} {W W' : (String → Option Ty) → List Notice}

theorem of_iff (h : Decides x os P W) (hP : ∀ G, P G ↔ P' G) (hW : ∀ G, W G = W' G) :
    Decides x os P' W' := by
  obtain rfl : P = P' := funext fun G => propext (hP G)
  obtain rfl : W = W' := funext hW
  exact h

theorem pure {a : α} : Decides (Pure.pure a) [] (fun _ => True) fun _ => [] where
  run _ := .pure ⟨trivial, rfl, trivial, (List.append_nil _).symm⟩
  congr _ _ _ := ⟨Iff.rfl, rfl⟩

theorem fail {p : Problem} : Decides (Typing.fail p : Check α) [] (fun _ => False) fun _ => [] where
  run _ := .throw fun h => h.2
  congr _ _ _ := ⟨Iff.rfl, rfl⟩

/-- What has been decided is still so in the table that admitted occurrences lead to. -/
theorem later (h : Decides x os P W) (hos : s.Admits os) (hos' : (s.after os).Admits os') :
    (P (s.after os).find? ↔ P (s.after (os ++ os')).find?) ∧
      W (s.after os).find? = W (s.after (os ++ os')).find? := by
  rw [after_append]
  exact h.congr _ _ (hos.agreeOn hos'.extends)

/-- One step and then the next, in the table that the first has left behind. -/
theorem bind {x : Check Unit} {f : Unit → Check β} (hx : Decides x os P W)
    (hf : Decides (f ()) os' P' W') :
    Decides (x >>= f) (os ++ os') (fun G => P G ∧ P' G) fun G => W G ++ W' G where
  run st := by
    rw [admits_append]
    refine (hx.run st).andThen ?_ fun _ _ herror => ?_
    · rintro - st₁ ⟨hos, hst₁, hP, hnotices⟩
      refine (hf.run st₁).mono ?_ ?_
      · rintro b st₂ ⟨hos', hst₂, hP', hnotices'⟩
        rw [hst₁] at hos' hst₂ hP hnotices
        rw [← after_append] at hst₂
        obtain ⟨hsame, hsameNotices⟩ := hx.later hos hos'
        rw [hsameNotices] at hnotices
        rw [hst₂] at hP' hnotices' ⊢
        refine ⟨⟨hos, hos'⟩, rfl, ⟨hsame.1 hP, hP'⟩, ?_⟩
        rw [hnotices', hnotices, List.append_assoc]
      · rintro e st₂ hnot ⟨⟨-, hos'⟩, -, hP'⟩
        rw [after_append] at hP'
        rw [hst₁] at hnot
        exact hnot ⟨hos', hP'⟩
    · rintro ⟨⟨hos, hos'⟩, hP, -⟩
      exact herror ⟨hos, (hx.later hos hos').1.2 hP⟩
  congr G G' h := by
    rw [AgreeOn.append] at h
    obtain ⟨hP, hW⟩ := hx.congr G G' h.1
    obtain ⟨hP', hW'⟩ := hf.congr G G' h.2
    exact ⟨and_congr hP hP', congrArg₂ _ hW hW'⟩

end Decides

/-! ## The check -/

/-- A value that is returned has a type, and not the type `unknown`. -/
def Known (G : String → Option Ty) : Node → Prop
  | .retValue value _ => ∃ type, value.typeUnder G = some type ∧ type ≠ .unknown
  | _ => True

/-- All nodes of the tree are well typed. -/
def WellTyped (G : String → Option Ty) (n : Node) : Prop := ∀ m ∈ n.parts, Sound G m ∧ Known G m

/-- The notices on a tree. -/
def widenedIn (G : String → Option Ty) (n : Node) : List Notice := n.parts.filterMap (widening? G)

theorem known_congr {n : Node} (h : AgreeOn n.occurrences G G') : Known G n ↔ Known G' n := by
  cases n with
  | retValue value l => rw [Known, Known, Node.typeUnder_congr (e := value) h]
  | assign | binary | int | float | string | var | ifThen | ifElse | forLoop | whileLoop | ret
  | block | bare => exact Iff.rfl

theorem wellTyped_congr {n : Node} (h : AgreeOn n.occurrences G G') :
    WellTyped G n ↔ WellTyped G' n := by
  refine forall₂_congr fun m hm => ?_
  have hm := h.subset (Node.occurrences_subset hm)
  exact and_congr (sound_congr hm) (known_congr hm)

theorem wellTyped_expression (he : e.IsExpression) :
    WellTyped G e ↔ ∀ m ∈ e.parts, Sound G m := by
  refine forall₂_congr fun m hm => and_iff_left ?_
  cases he.parts m hm <;> exact trivial

theorem widenedIn_expression (he : e.IsExpression) : widenedIn G e = [] := by
  refine List.filterMap_eq_nil_iff.2 fun m hm => ?_
  cases he.parts m hm <;> rfl

theorem typed_of_ok {st : State} {type : Ty} (h : typeOf lines st.symbols e = .ok type) :
    typed lines e st = .ok type st := by
  unfold typed
  refine (bind_of_ok rfl).trans ?_
  rw [h]
  rfl

theorem typed_of_error {st : State} {p : Problem} (h : typeOf lines st.symbols e = .error p) :
    typed lines e st = .error (.problem p) st := by
  unfold typed
  refine (bind_of_ok rfl).trans ?_
  rw [h]
  rfl

/-- An expression is typed, and the next step gets its type. -/
theorem typed_bind (lines : List String) (he : e.IsExpression) {f : Ty → Check Unit} {os : List Occurrence}
    {P : Ty → (String → Option Ty) → Prop} {W : Ty → (String → Option Ty) → List Notice}
    (hf : ∀ type, Decides (f type) os (P type) (W type)) :
    Decides (typed lines e >>= f) (e.occurrences ++ os)
      (fun G => WellTyped G e ∧ ∃ type, e.typeUnder G = some type ∧ P type G)
      fun G => (e.typeUnder G).elim [] (W · G) where
  run st := by
    have hafter := (admits_of_use (s := st.symbols) he.use).2
    have hlater : st.symbols.Admits e.occurrences → st.symbols.Admits os →
        AgreeOn e.occurrences st.symbols.find? (st.symbols.after os).find? := by
      intro hadmits hos
      have hagree := @Admits.agreeOn st.symbols (st.symbols.after os) e.occurrences hadmits
      rw [hafter] at hagree
      exact hagree hos.extends
    rw [admits_append, after_append, hafter]
    cases htype : typeOf lines st.symbols e with
    | ok type =>
      obtain ⟨hadmits, hsound, hunder⟩ := (typeOf_eq_ok_iff he).1 htype
      refine .bind (.ok (typed_of_ok htype) (((hf type).run st).mono ?_ ?_))
      · rintro - st' ⟨hos, hst', hP, hnotices⟩
        have hagree := hlater hadmits hos
        rw [hst'] at hP hnotices ⊢
        have hunder' := (Node.typeUnder_congr hagree).symm.trans hunder
        refine ⟨⟨hadmits, hos⟩, rfl, ⟨?_, type, hunder', hP⟩, ?_⟩
        · exact (wellTyped_congr hagree).1 ((wellTyped_expression he).2 hsound)
        · rw [hnotices, hunder']
          rfl
      · rintro - - hnot ⟨⟨-, hos⟩, -, type', htype', hP⟩
        have hunder' := (Node.typeUnder_congr (hlater hadmits hos)).symm.trans hunder
        cases hunder'.symm.trans htype'
        exact hnot ⟨hos, hP⟩
    | error p =>
      refine .bind (.error (typed_of_error htype) ?_)
      rintro ⟨⟨hadmits, hos⟩, hwell, type, hunder, -⟩
      have hagree := hlater hadmits hos
      have hok : typeOf lines st.symbols e = .ok type := by
        refine (typeOf_eq_ok_iff he).2 ⟨hadmits, ?_, (Node.typeUnder_congr hagree).trans hunder⟩
        exact (wellTyped_expression he).1 ((wellTyped_congr hagree).2 hwell)
      rw [htype] at hok
      cases hok
  congr G G' h := by
    rw [AgreeOn.append] at h
    refine ⟨and_congr (wellTyped_congr h.1) ?_, ?_⟩
    · rw [Node.typeUnder_congr h.1]
      exact exists_congr fun type => and_congr_right fun _ => ((hf type).congr G G' h.2).1
    · rw [Node.typeUnder_congr h.1]
      cases e.typeUnder G' with
      | none => rfl
      | some type => exact ((hf type).congr G G' h.2).2

theorem declare_decides {name : String} {type : Ty} {l : Option Location} :
    Decides (declare lines name type l) [.declare name type] (fun _ => True) fun _ => [] where
  run st := by
    unfold declare
    refine .bind (.ok rfl ?_)
    split
    · next present hpresent =>
      refine .throw fun h => ?_
      cases hpresent.symm.trans h.1.1
    · next hnone => exact .ok rfl ⟨⟨hnone, trivial⟩, rfl, trivial, (List.append_nil _).symm⟩
  congr _ _ _ := ⟨Iff.rfl, rfl⟩

theorem assign_decides {name : String} {type : Ty} {l : Option Location} :
    Decides (assign lines name type l) [.use name]
      (fun G => ∃ target, G name = some target ∧
        (type = target ∨ type = .int ∧ target = .float))
      fun G => if G name = some .float ∧ type = .int then [.widened name] else [] where
  run st := by
    unfold assign
    refine .bind (.ok rfl ?_)
    split
    · next hnone => exact .throw fun h => h.1.1 hnone
    · next target htarget =>
      have hadmits : st.symbols.Admits [.use name] := ⟨by rw [htarget]; nofun, trivial⟩
      by_cases hwidened : target = .float ∧ type = .int
      · obtain ⟨rfl, rfl⟩ := hwidened
        refine .ok rfl ⟨hadmits, rfl, ⟨_, htarget, .inr ⟨rfl, rfl⟩⟩, ?_⟩
        rw [if_pos ⟨htarget, rfl⟩]
      · have hbool : (target = .float && type = .int) = false := by
          rw [← Bool.not_eq_true, Bool.and_eq_true, decide_eq_true_eq, decide_eq_true_eq]
          exact hwidened
        rw [hbool, if_neg Bool.false_ne_true]
        by_cases hsame : target = type
        · rw [if_pos hsame]
          refine .pure ⟨hadmits, rfl, ⟨_, htarget, .inl hsame.symm⟩, ?_⟩
          simp only [htarget, Option.some.injEq, if_neg hwidened, List.append_nil]
        · rw [if_neg hsame]
          refine .throw ?_
          rintro ⟨-, target', htarget', h⟩
          cases htarget.symm.trans htarget'
          rcases h with rfl | ⟨rfl, rfl⟩
          · exact hsame rfl
          · exact hwidened ⟨rfl, rfl⟩
  congr G G' h := by
    have hname := h name (List.mem_singleton.2 rfl)
    simp only [hname, and_self]

/-- A condition is a number. -/
theorem condition_decides {construct : String} (he : e.IsExpression) :
    Decides (condition lines construct e) e.occurrences
      (fun G => WellTyped G e ∧ e.IsNumber G) fun _ => [] := by
  unfold condition
  have hnumeric : ∀ type : Ty, Decides (if type.isNumeric then Pure.pure () else
      Typing.fail (problemAt lines e.location (.conditionNotNumeric construct type.name)))
      [] (fun _ => type = .int ∨ type = .float) fun _ => [] := by
    intro type
    cases type with
    | int => exact Decides.pure.of_iff (fun _ => (iff_true_intro (.inl rfl)).symm) fun _ => rfl
    | float => exact Decides.pure.of_iff (fun _ => (iff_true_intro (.inr rfl)).symm) fun _ => rfl
    | string | other => exact Decides.fail.of_iff (fun _ => (iff_false_intro nofun).symm) fun _ => rfl
  have h := typed_bind lines he hnumeric
  rw [List.append_nil] at h
  refine h.of_iff (fun G => and_congr_right fun _ => Node.isNumber_iff.symm) fun G => ?_
  cases e.typeUnder G <;> rfl

theorem checkAll_decides {ss : List Node}
    (h : ∀ n ∈ ss, Decides (check lines n) n.occurrences (WellTyped · n) (widenedIn · n)) :
    Decides (checkAll lines ss) (Node.occurrencesAll ss) (fun G => ∀ n ∈ ss, WellTyped G n)
      (widenings · ss) := by
  induction ss with
  | nil => exact Decides.pure.of_iff (fun _ => by simp) fun _ => rfl
  | cons n ss ih =>
    obtain ⟨hn, hss⟩ := List.forall_mem_cons.1 h
    rw [checkAll]
    refine (hn.bind (ih hss)).of_iff (fun G => List.forall_mem_cons.symm) fun G => ?_
    exact List.filterMap_append.symm

section WellTyped

variable {name : String} {value : Node} {declares : Option Ty} {l : Option Location}

theorem wellTyped_assign : WellTyped G (.assign name value declares l) ↔
    WellTyped G value ∧ ∃ type, value.typeUnder G = some type ∧ ∃ target, G name = some target ∧
      (type = target ∨ type = .int ∧ target = .float) := by
  simp only [WellTyped, Node.parts, List.forall_mem_cons, Sound, Known, and_true]
  constructor
  · rintro ⟨⟨target, type, htarget, htype, h⟩, hvalue⟩
    exact ⟨hvalue, type, htype, target, htarget, h⟩
  · rintro ⟨hvalue, type, htype, target, htarget, h⟩
    exact ⟨⟨target, type, htarget, htype, h⟩, hvalue⟩

theorem widenedIn_assign (he : value.IsExpression) :
    widenedIn G (.assign name value declares l) = (value.typeUnder G).elim [] fun type =>
      if G name = some .float ∧ type = .int then [.widened name] else [] := by
  rw [widenedIn, Node.parts, List.filterMap_cons, ← widenedIn, widenedIn_expression he, widening?]
  cases value.typeUnder G with
  | none => simp
  | some type =>
    simp only [Option.elim, Option.some.injEq]
    split_ifs <;> rfl

end WellTyped

/-- **The check of a statement** succeeds iff its occurrences are admitted and its nodes are well
typed. -/
theorem check_decides {n : Node} (hn : n.IsStatement) :
    Decides (check lines n) n.occurrences (WellTyped · n) (widenedIn · n) := by
  induction hn with
  | @assign name value declares l he =>
    rw [check]
    cases declares with
    | none =>
      exact (typed_bind lines he fun _ => assign_decides).of_iff (fun _ => wellTyped_assign.symm)
        fun _ => (widenedIn_assign he).symm
    | some declared =>
      refine (typed_bind lines he fun _ => (declare_decides.bind assign_decides).of_iff
        (fun _ => iff_of_eq (true_and _)) fun _ => rfl).of_iff (fun _ => wellTyped_assign.symm)
        fun _ => (widenedIn_assign he).symm
  | @ret l =>
    exact Decides.pure.of_iff (fun G => by simp [WellTyped, Node.parts, Sound, Known]) fun _ => rfl
  | @retValue value l he =>
    rw [check]
    have hknown : ∀ type : Ty, Decides
        (if type = .unknown then Typing.fail (problemAt lines l .untypedResult) else Pure.pure ())
        [] (fun _ => type ≠ .unknown) fun _ => [] := by
      intro type
      split_ifs with htype
      · exact Decides.fail.of_iff (fun _ => (iff_false_intro (not_not_intro htype)).symm) fun _ => rfl
      · exact Decides.pure.of_iff (fun _ => (iff_true_intro htype).symm) fun _ => rfl
    have h := typed_bind lines he hknown
    rw [List.append_nil] at h
    refine h.of_iff (fun G => ?_) fun G => ?_
    · simp only [WellTyped, Node.parts, List.forall_mem_cons, Sound, Known]
      rw [true_and, and_comm]
    · have hnone : value.parts.filterMap (widening? G) = [] := widenedIn_expression he
      cases value.typeUnder G <;> simp [widenedIn, Node.parts, List.filterMap_cons, widening?, hnone]
  | @block ss l _ ih =>
    rw [check]
    refine (checkAll_decides ih).of_iff (fun G => ?_) fun _ => rfl
    simp only [WellTyped, Node.parts, List.forall_mem_cons, Node.mem_partsAll, Sound, Known]
    grind
  | @ifThen c t l hc _ iht =>
    rw [check]
    refine ((condition_decides hc).bind iht).of_iff (fun G => ?_) fun G => ?_
    · simp only [WellTyped, Node.parts, List.forall_mem_cons, List.forall_mem_append, Sound, Known]
      tauto
    · have hnone : c.parts.filterMap (widening? G) = [] := widenedIn_expression hc
      simp [widenedIn, Node.parts, List.filterMap_cons, widening?, hnone]
  | @ifElse c t e l hc _ _ iht ihe =>
    rw [check]
    refine ((condition_decides hc).bind (iht.bind ihe)).of_iff (fun G => ?_) fun G => ?_
    · simp only [WellTyped, Node.parts, List.forall_mem_cons, List.forall_mem_append, Sound, Known]
      tauto
    · have hnone : c.parts.filterMap (widening? G) = [] := widenedIn_expression hc
      simp [widenedIn, Node.parts, List.filterMap_cons, widening?, hnone]
  | @forLoop i c u b l _ hc _ _ ihi ihu ihb =>
    rw [check]
    refine (ihi.bind ((condition_decides hc).bind (ihu.bind ihb))).of_iff (fun G => ?_) fun G => ?_
    · simp only [WellTyped, Node.parts, List.forall_mem_cons, List.forall_mem_append, Sound, Known]
      tauto
    · have hnone : c.parts.filterMap (widening? G) = [] := widenedIn_expression hc
      simp [widenedIn, Node.parts, List.filterMap_cons, widening?, hnone]
  | @whileLoop c b l hc _ ihb =>
    rw [check]
    refine ((condition_decides hc).bind ihb).of_iff (fun G => ?_) fun G => ?_
    · simp only [WellTyped, Node.parts, List.forall_mem_cons, List.forall_mem_append, Sound, Known]
      tauto
    · have hnone : c.parts.filterMap (widening? G) = [] := widenedIn_expression hc
      simp [widenedIn, Node.parts, List.filterMap_cons, widening?, hnone]

end Typing

end ThreeAddress
