import ThreeAddress.Compilation
import ThreeAddress.Proofs.Steps
import ThreeAddress.Proofs.Tree.Places

/-!
# Phases without places

No phase behind the parser looks at a place: it puts places into trees and problems, and the line of
a place into a problem. So a phase does with a tree what it does with the tree without its places,
and two trees that differ in places only are treated alike. Nor does a phase look at its notices.

* `Agrees`: two steps have the same outcome but for places; one rule for each way to build a step.
* `check_unplaced`, `fold_unplaced`, `statement_unplaced`: a phase on a tree, and on the tree
  without its places.
* `typecheck_agrees`, `foldAll_agrees`, `generateAll_congr`: the phases on two programs.
-/

namespace ThreeAddress

/-! ## Steps that agree -/

/-- Both steps have succeeded with results that go together and states that look the same, or both
have failed in the same way, wherever the fault is placed. -/
inductive SameOutcome {σ γ α β : Type} (view : σ → γ) (Goes : α → β → Prop) :
    EStateM.Result Failure σ α → EStateM.Result Failure σ β → Prop
  | ok {a : α} {b : β} {s t : σ} :
      Goes a b → view s = view t → SameOutcome view Goes (.ok a s) (.ok b t)
  | error {e e' : Failure} {s t : σ} :
      e.unplaced = e'.unplaced → SameOutcome view Goes (.error e s) (.error e' t)

theorem SameOutcome.of_ok {σ γ α β : Type} {view : σ → γ} {Goes : α → β → Prop} {a : α} {s : σ}
    {o : EStateM.Result Failure σ β} (h : SameOutcome view Goes (.ok a s) o) :
    ∃ b t, o = .ok b t ∧ Goes a b ∧ view s = view t := by
  cases h with
  | ok hab hst => exact ⟨_, _, rfl, hab, hst⟩

/-- From states that look the same the steps have the same outcome. -/
def Agrees {σ γ α β : Type} (view : σ → γ) (Goes : α → β → Prop) (x : EStateM Failure σ α)
    (y : EStateM Failure σ β) : Prop :=
  ∀ s t, view s = view t → SameOutcome view Goes (x s) (y t)

namespace Agrees

variable {σ γ α β δ ζ : Type} {view : σ → γ} {Goes Goes' : α → β → Prop} {Next : δ → ζ → Prop}
  {x : EStateM Failure σ α} {y : EStateM Failure σ β} {f : α → EStateM Failure σ δ}
  {g : β → EStateM Failure σ ζ}

theorem pure {a : α} {b : β} (h : Goes a b) :
    Agrees view Goes (Pure.pure a) (Pure.pure b) :=
  fun _ _ hst => .ok h hst

theorem throw {e e' : Failure} (h : e.unplaced = e'.unplaced) :
    Agrees view Goes (MonadExcept.throw e) (MonadExcept.throw e') :=
  fun _ _ _ => .error h

theorem bind (hx : Agrees view Goes x y) (hf : ∀ a b, Goes a b → Agrees view Next (f a) (g b)) :
    Agrees view Next (x >>= f) (y >>= g) := by
  intro s t hst
  have houtcome := hx s t hst
  generalize hxs : x s = o at houtcome
  generalize hyt : y t = o' at houtcome
  cases houtcome with
  | ok hab hst' =>
    rw [bind_of_ok hxs, bind_of_ok hyt]
    exact hf _ _ hab _ _ hst'
  | error he =>
    rw [bind_of_error hxs, bind_of_error hyt]
    exact .error he

/-- Both steps look at the state. -/
theorem look {f : σ → EStateM Failure σ δ} {g : σ → EStateM Failure σ ζ}
    (h : ∀ s t, view s = view t → Agrees view Next (f s) (g t)) :
    Agrees view Next (get >>= f) (get >>= g) :=
  fun s t hst => h s t hst s t hst

/-- Both steps change the state in ways that look the same. -/
theorem update {f g : σ → σ} (h : ∀ s t, view s = view t → view (f s) = view (g t)) :
    Agrees view (fun _ _ => True) (modify f) (modify g) :=
  fun s t hst => .ok trivial (h s t hst)

theorem of_ok (hx : Agrees view Goes x y) {s s' t : σ} {a : α} (hst : view s = view t)
    (h : x s = .ok a s') : ∃ b t', y t = .ok b t' ∧ Goes a b ∧ view s' = view t' := by
  have houtcome := hx s t hst
  rw [h] at houtcome
  exact houtcome.of_ok

theorem mono (hx : Agrees view Goes x y) (h : ∀ a b, Goes a b → Goes' a b) :
    Agrees view Goes' x y := by
  intro s t hst
  have houtcome := hx s t hst
  generalize x s = o at houtcome ⊢
  generalize y t = o' at houtcome ⊢
  cases houtcome with
  | ok hab hst' => exact .ok (h _ _ hab) hst'
  | error he => exact .error he

/-- Two steps agree if both agree with a third one. -/
theorem through {x' : EStateM Failure σ α} {Goes'' : α → α → Prop} (hx : Agrees view Goes x y)
    (hx' : Agrees view Goes x' y) (h : ∀ a a' b, Goes a b → Goes a' b → Goes'' a a') :
    Agrees view Goes'' x x' := by
  intro s t hst
  have houtcome := hx s s rfl
  have houtcome' := hx' t s hst.symm
  generalize x s = o at houtcome ⊢
  generalize x' t = o' at houtcome' ⊢
  generalize y s = third at houtcome houtcome'
  cases houtcome with
  | ok hab hview =>
    cases houtcome' with
    | ok hab' hview' => exact .ok (h _ _ _ hab hab') (hview.trans hview'.symm)
  | error he =>
    cases houtcome' with
    | error he' => exact .error (he.trans he'.symm)

end Agrees

/-! ## Work -/

/-- Notices take no part in agreement. -/
def unseen (_ : List Notice) : Unit := ()

section Work

variable {α β : Type} {Goes : α → β → Prop}

theorem tellAll_agrees (ns ns' : List Notice) :
    Agrees unseen (fun _ _ => True) (Work.tellAll ns) (Work.tellAll ns') :=
  .update fun _ _ _ => rfl

theorem tell_agrees (n n' : Notice) :
    Agrees unseen (fun _ _ => True) (Work.tell n) (Work.tell n') :=
  .update fun _ _ _ => rfl

/-- Results that are there already, good ones or problems. -/
theorem accept_agrees {r : Except Problem α} {r' : Except Problem β}
    (h : (∃ a b, r = .ok a ∧ r' = .ok b ∧ Goes a b) ∨
      ∃ p p', r = .error p ∧ r' = .error p' ∧ p.unplaced = p'.unplaced) :
    Agrees unseen Goes (Work.accept r) (Work.accept r') := by
  rcases h with ⟨a, b, rfl, rfl, hab⟩ | ⟨p, p', rfl, rfl, hp⟩
  · exact .pure hab
  · exact .throw (congrArg Failure.problem hp)

theorem take_agrees (r : Except Failure α) : Agrees unseen Eq (Work.take r) (Work.take r) := by
  cases r with
  | ok a => exact .pure rfl
  | error e => exact .throw rfl

end Work

/-! ## Checking -/

namespace Typing

theorem typeOf_unplaced (lines lines' : List String) (symbols : Symbols) (n : Node) :
    typeOf lines' symbols n.unplaced = (typeOf lines symbols n).mapError Problem.unplaced := by
  induction n with
  | var name location =>
    rw [Node.unplaced, Node.mapPlaces, typeOf, typeOf]
    cases symbols.find? name with
    | none => rfl
    | some type => rfl
  | binary left op right location ihl ihr =>
    rw [Node.unplaced, Node.mapPlaces, typeOf, typeOf, ihl, ihr]
    cases typeOf lines symbols left with
    | error p => rfl
    | ok leftType =>
      cases typeOf lines symbols right with
      | error p => rfl
      | ok rightType =>
        show Except.mapError _ (operationType op leftType rightType) =
          Except.mapError _ (Except.mapError _ (operationType op leftType rightType))
        cases operationType op leftType rightType with
        | error cause => rfl
        | ok type => rfl
  | _ => rfl

variable {lines lines' : List String}

/-- Problems with one cause agree, wherever they are. -/
theorem fail_agrees {α β : Type} {Goes : α → β → Prop} {p p' : Problem}
    (h : p.unplaced = p'.unplaced) : Agrees State.symbols Goes (fail p) (fail p') :=
  .throw (congrArg Failure.problem h)

theorem typed_unplaced (n : Node) :
    Agrees State.symbols Eq (typed lines n) (typed lines' n.unplaced) := by
  refine .look fun s t hst => ?_
  rw [hst, typeOf_unplaced lines lines']
  cases typeOf lines t.symbols n with
  | ok type => exact .pure rfl
  | error p => exact fail_agrees rfl

theorem condition_unplaced (construct : String) (n : Node) :
    Agrees State.symbols (fun _ _ => True) (condition lines construct n)
      (condition lines' construct n.unplaced) := by
  unfold condition
  refine (typed_unplaced n).bind fun type _ htype => ?_
  subst htype
  split
  · exact .pure trivial
  · exact fail_agrees rfl

theorem declare_agrees (name : String) (type : Ty) (location location' : Option Location) :
    Agrees State.symbols (fun _ _ => True) (declare lines name type location)
      (declare lines' name type location') := by
  refine .look fun s t hst => ?_
  rw [hst]
  cases t.symbols.find? name with
  | some present => exact fail_agrees rfl
  | none => exact fun _ _ _ => .ok trivial rfl

theorem assign_agrees (name : String) (value : Ty) (location location' : Option Location) :
    Agrees State.symbols (fun _ _ => True) (assign lines name value location)
      (assign lines' name value location') := by
  refine .look fun s t hst => ?_
  rw [hst]
  cases t.symbols.find? name with
  | none => exact fail_agrees rfl
  | some target =>
    dsimp only
    split
    · exact .update fun _ _ hst => hst
    · split
      · exact .pure trivial
      · exact fail_agrees rfl

theorem checkAll_unplaced_of {ss : List Node}
    (h : ∀ s ∈ ss, Agrees State.symbols (fun _ _ => True) (check lines s)
      (check lines' s.unplaced)) :
    Agrees State.symbols (fun _ _ => True) (checkAll lines ss)
      (checkAll lines' (ss.map Node.unplaced)) := by
  induction ss with
  | nil => exact .pure trivial
  | cons s ss ih =>
    obtain ⟨hs, hss⟩ := List.forall_mem_cons.1 h
    rw [List.map_cons, checkAll, checkAll]
    exact hs.bind fun _ _ _ => ih hss

/-- **The check does not look at places.** -/
theorem check_unplaced (n : Node) :
    Agrees State.symbols (fun _ _ => True) (check lines n) (check lines' n.unplaced) := by
  induction n with
  | assign name value declares location =>
    rw [Node.unplaced, Node.mapPlaces, check, check]
    refine (typed_unplaced value).bind fun type _ htype => ?_
    subst htype
    cases declares with
    | none => exact assign_agrees name type location none
    | some declared =>
      exact (declare_agrees name declared location none).bind fun _ _ _ =>
        assign_agrees name type location none
  | binary left op right location =>
    rw [Node.unplaced, Node.mapPlaces, check, check]
    exact (typed_unplaced (.binary left op right location)).bind fun _ _ _ => .pure trivial
  | var name location =>
    rw [Node.unplaced, Node.mapPlaces, check, check]
    exact (typed_unplaced (.var name location)).bind fun _ _ _ => .pure trivial
  | int | float | string | ret => exact .pure trivial
  | ifThen test thenBranch _ _ iht =>
    rw [Node.unplaced, Node.mapPlaces, check, check]
    exact (condition_unplaced _ test).bind fun _ _ _ => iht
  | ifElse test thenBranch elseBranch _ _ iht ihe =>
    rw [Node.unplaced, Node.mapPlaces, check, check]
    exact (condition_unplaced _ test).bind fun _ _ _ => iht.bind fun _ _ _ => ihe
  | forLoop init test update body _ ihi _ ihu ihb =>
    rw [Node.unplaced, Node.mapPlaces, check, check]
    refine ihi.bind fun _ _ _ => (condition_unplaced _ test).bind fun _ _ _ => ?_
    exact ihu.bind fun _ _ _ => ihb
  | whileLoop test body _ _ ihb =>
    rw [Node.unplaced, Node.mapPlaces, check, check]
    exact (condition_unplaced _ test).bind fun _ _ _ => ihb
  | retValue value location =>
    rw [Node.unplaced, Node.mapPlaces, check, check]
    refine (typed_unplaced value).bind fun type _ htype => ?_
    subst htype
    split
    · exact fail_agrees rfl
    · exact .pure trivial
  | block statements _ ih =>
    rw [Node.unplaced, Node.mapPlaces, Node.mapPlacesAll_eq_map, check, check]
    exact checkAll_unplaced_of ih
  | bare => exact .throw rfl

theorem checkAll_unplaced (lines lines' : List String) (ss : List Node) :
    Agrees State.symbols (fun _ _ => True) (checkAll lines ss)
      (checkAll lines' (ss.map Node.unplaced)) :=
  checkAll_unplaced_of fun s _ => check_unplaced s

end Typing

/-! ## Folding -/

namespace Folding

variable {op : Operator}

/-- The second tree is the first one without its places. -/
abbrev Unplaces (n m : Node) : Prop := m = n.unplaced

theorem ints_agrees {a b : Int} {l : Option Location} {kept kept' : Node}
    (h : Unplaces kept kept') :
    Agrees unseen Unplaces (ints a op b l kept) (ints a op b none kept') := by
  unfold ints
  split
  · exact .throw rfl
  · split
    · exact .pure h
    · split
      · exact (tell_agrees _ _).bind fun _ _ _ => .pure rfl
      · exact (tell_agrees _ _).bind fun _ _ _ => .pure h

theorem floats_agrees {x y : Float} {l : Option Location} {kept kept' : Node}
    (h : Unplaces kept kept') :
    Agrees unseen Unplaces (floats x op y l kept) (floats x op y none kept') := by
  unfold floats
  split
  · exact .pure h
  · exact (tell_agrees _ _).bind fun _ _ _ => .pure rfl

theorem operation_unplaced (left right : Node) (l : Option Location) :
    Agrees unseen Unplaces (operation left op right l)
      (operation left.unplaced op right.unplaced none) := by
  cases left with
  | int a la =>
    cases right with
    | int b lb => exact ints_agrees rfl
    | float b lb =>
      simp only [Node.unplaced, Node.mapPlaces, operation]
      cases promote? a with
      | some x => exact floats_agrees rfl
      | none => exact (tell_agrees _ _).bind fun _ _ _ => .pure rfl
    | _ => exact .pure rfl
  | float a la =>
    cases right with
    | float b lb => exact floats_agrees rfl
    | int b lb =>
      simp only [Node.unplaced, Node.mapPlaces, operation]
      cases promote? b with
      | some x => exact floats_agrees rfl
      | none => exact (tell_agrees _ _).bind fun _ _ _ => .pure rfl
    | _ => exact .pure rfl
  | _ => exact .pure rfl

/-- **Folding does not look at places.** -/
theorem fold_unplaced (n : Node) : Agrees unseen Unplaces (fold n) (fold n.unplaced) := by
  induction n with
  | binary left op right location ihl ihr =>
    rw [Node.unplaced, Node.mapPlaces, fold, fold]
    refine ihl.bind fun left' _ hl => ihr.bind fun right' _ hr => ?_
    subst hl hr
    exact operation_unplaced left' right' location
  | ifThen condition thenBranch location ihc iht =>
    rw [Node.unplaced, Node.mapPlaces, fold, fold]
    refine ihc.bind fun _ _ hc => iht.bind fun _ _ ht => ?_
    subst hc ht
    exact .pure rfl
  | ifElse condition thenBranch elseBranch location ihc iht ihe =>
    rw [Node.unplaced, Node.mapPlaces, fold, fold]
    refine ihc.bind fun _ _ hc => iht.bind fun _ _ ht => ihe.bind fun _ _ he => ?_
    subst hc ht he
    exact .pure rfl
  | forLoop init condition update body location _ _ _ ihb =>
    rw [Node.unplaced, Node.mapPlaces, fold, fold]
    refine ihb.bind fun _ _ hb => ?_
    subst hb
    exact .pure rfl
  | whileLoop condition body location _ ihb =>
    rw [Node.unplaced, Node.mapPlaces, fold, fold]
    refine ihb.bind fun _ _ hb => ?_
    subst hb
    exact .pure rfl
  | retValue value location ih =>
    rw [Node.unplaced, Node.mapPlaces, fold, fold]
    refine ih.bind fun _ _ hv => ?_
    subst hv
    exact .pure rfl
  | bare => exact .throw rfl
  | _ => exact .pure rfl

theorem foldAll_unplaced (ss : List Node) :
    Agrees unseen (fun ts us => us = ts.map Node.unplaced) (foldAll ss)
      (foldAll (ss.map Node.unplaced)) := by
  induction ss with
  | nil => exact .pure rfl
  | cons s ss ih =>
    rw [List.map_cons, foldAll, foldAll]
    refine (fold_unplaced s).bind fun _ _ hs => ih.bind fun _ _ hss => .pure ?_
    rw [hs, hss, List.map_cons]

end Folding

/-! ## Lowering -/

namespace Lowering

theorem expression_unplaced (n : Node) : expression n.unplaced = expression n := by
  induction n with
  | binary left op right location ihl ihr =>
    rw [Node.unplaced, Node.mapPlaces, expression, expression, ihl, ihr]
  | _ => rfl

theorem sequence_map {ss : List Node}
    (h : ∀ s ∈ ss, statement s.unplaced = statement s) :
    sequence (ss.map Node.unplaced) = sequence ss := by
  induction ss with
  | nil => rfl
  | cons s ss ih =>
    obtain ⟨hs, hss⟩ := List.forall_mem_cons.1 h
    rw [List.map_cons, sequence, sequence, hs, ih hss]

/-- **Lowering does not look at places.** -/
theorem statement_unplaced (n : Node) : statement n.unplaced = statement n := by
  induction n with
  | assign name value declares location =>
    rw [Node.unplaced, Node.mapPlaces, statement, statement, expression_unplaced]
  | binary left op right location =>
    show (expression (Node.binary left op right location).unplaced >>= fun c => pure c.1) =
      (expression (.binary left op right location) >>= fun c => pure c.1)
    rw [expression_unplaced]
  | ifThen condition thenBranch location _ iht =>
    rw [Node.unplaced, Node.mapPlaces, statement, statement, expression_unplaced, iht]
  | ifElse condition thenBranch elseBranch location _ iht ihe =>
    rw [Node.unplaced, Node.mapPlaces, statement, statement, expression_unplaced, iht, ihe]
  | forLoop init condition update body location ihi _ ihu ihb =>
    rw [Node.unplaced, Node.mapPlaces, statement, statement, expression_unplaced, ihi, ihu, ihb]
  | whileLoop condition body location _ ihb =>
    rw [Node.unplaced, Node.mapPlaces, statement, statement, expression_unplaced, ihb]
  | retValue value location =>
    rw [Node.unplaced, Node.mapPlaces, statement, statement, expression_unplaced]
  | block statements location ih =>
    rw [Node.unplaced, Node.mapPlaces, Node.mapPlacesAll_eq_map, statement, statement]
    exact sequence_map ih
  | _ => rfl

theorem generateAll_map (ss : List Node) :
    generateAll (ss.map Node.unplaced) = generateAll ss := by
  induction ss with
  | nil => rfl
  | cons s ss ih =>
    rw [List.map_cons, generateAll, generateAll, generate, generate, statement_unplaced, ih]

end Lowering

/-! ## Programs -/

section Phases

variable {program program' : List Node}
  (h : program.map Node.unplaced = program'.map Node.unplaced)

include h

theorem checkAll_agrees (lines lines' : List String) :
    Agrees Typing.State.symbols (fun _ _ => True) (Typing.checkAll lines program)
      (Typing.checkAll lines' program') := by
  have hprogram' := Typing.checkAll_unplaced lines' lines program'
  rw [← h] at hprogram'
  exact (Typing.checkAll_unplaced lines lines program).through hprogram' fun _ _ _ _ _ => trivial

theorem typecheck_agrees (lines lines' : List String) :
    Agrees unseen Eq (typecheck lines program) (typecheck lines' program') := by
  intro notices notices' _
  have houtcome := checkAll_agrees h lines lines' { notices } { notices := notices' } rfl
  unfold typecheck tabulate Typing.run
  generalize Typing.checkAll lines program { notices } = o at houtcome ⊢
  generalize Typing.checkAll lines' program' { notices := notices' } = o' at houtcome ⊢
  cases houtcome with
  | ok _ hsymbols => exact .ok hsymbols rfl
  | error he => exact .error he

theorem foldAll_agrees :
    Agrees unseen (fun ss ss' => ss.map Node.unplaced = ss'.map Node.unplaced)
      (Folding.foldAll program) (Folding.foldAll program') := by
  have hfold := Folding.foldAll_unplaced program'
  rw [← h] at hfold
  exact (Folding.foldAll_unplaced program).through hfold fun _ _ _ hss hss' => hss.symm.trans hss'

theorem generateAll_congr : Lowering.generateAll program = Lowering.generateAll program' := by
  rw [← Lowering.generateAll_map, h, Lowering.generateAll_map]

end Phases

end ThreeAddress
