import ThreeAddress.Proofs.Typing.Decision

/-!
# What a check leaves in its table

The check of a tree is a walk along visits, at which an assignment, a condition, a returned value or
an expression is checked. Only the visit of an assignment that declares its target adds an entry to
the table, and it does so in its middle: behind the check of the value, and before the value is
compared with the target.

* `Symbols.GrowsBy`: a table with new entries behind the old ones.
* `Visit`, `visits`: what is done on the walk through a tree, in order.
* `check_eq`: the check of a tree makes these visits.
* `Visit.Mismatched`: a visit comes to the comparison, and the value does not go with the target.

**Theorem (`check_survivors`).** A check keeps the entries of its table. If it succeeds, the new
entries are the declarations of all visits. If it fails, they are those of the visits before the one
that fails, and that of the failing one iff it is mismatched.

This is so for one visit (`Visit.keeps`), and so for a walk, by induction on the visits
(`visitAll_keeps`).
-/

namespace ThreeAddress

/-! ## Growing tables -/

namespace Symbols

/-- The second table has the entries of the first and the new ones behind them, which are of
variables that were not in the table, each of them once. -/
structure GrowsBy (s : Symbols) (new : List (String × Ty)) (s' : Symbols) : Prop where
  entries : s'.entries = s.entries ++ new
  fresh : ∀ d ∈ new, s.find? d.1 = none
  once : (new.map Prod.fst).Nodup

variable {s s' s'' : Symbols} {new new' : List (String × Ty)} {name : String}

theorem GrowsBy.refl (s : Symbols) : GrowsBy s [] s where
  entries := (List.append_nil _).symm
  fresh _ hd := absurd hd List.not_mem_nil
  once := List.nodup_nil

theorem GrowsBy.set (h : s.find? name = none) (type : Ty) :
    GrowsBy s [(name, type)] (s.set name type) where
  entries := setEntry_of_lookup h
  fresh := List.forall_mem_singleton.2 h
  once := List.nodup_singleton _

theorem GrowsBy.extends (h : s.GrowsBy new s') : s.Extends s' := by
  intro x type hx
  rw [find?, h.entries, List.lookup_append, show s.entries.lookup x = some type from hx]
  rfl

theorem GrowsBy.find?_ne_none (h : s.GrowsBy new s') {d : String × Ty} (hd : d ∈ new) :
    s'.find? d.1 ≠ none := by
  intro hnone
  rw [find?, h.entries, List.lookup_eq_none_iff] at hnone
  simpa using hnone d (List.mem_append_right _ hd)

theorem GrowsBy.trans (h : s.GrowsBy new s') (h' : s'.GrowsBy new' s'') :
    s.GrowsBy (new ++ new') s'' where
  entries := by rw [h'.entries, h.entries, List.append_assoc]
  fresh := by
    refine List.forall_mem_append.2 ⟨h.fresh, fun d hd => ?_⟩
    cases hfind : s.find? d.1 with
    | none => rfl
    | some type => exact absurd ((h.extends _ _ hfind).symm.trans (h'.fresh d hd)) nofun
  once := by
    rw [List.map_append, List.nodup_append]
    refine ⟨h.once, h'.once, fun x hx y hy hxy => ?_⟩
    obtain ⟨d, hd, rfl⟩ := List.mem_map.1 hx
    obtain ⟨d', hd', rfl⟩ := List.mem_map.1 hy
    exact h.find?_ne_none hd (hxy ▸ h'.fresh d' hd')

end Symbols

open Symbols

/-- Whether the problem is that a value does not go with the target of its assignment. -/
def Failure.isMismatch : Failure → Bool
  | .problem ⟨.assignmentMismatch .., _, _⟩ => true
  | _ => false

namespace Typing

/-! ## Visits -/

/-- What the check does at one place of its walk. -/
inductive Visit where
  | assignment (name : String) (value : Node) (declares : Option Ty) (location : Option Location)
  | condition (construct : String) (test : Node)
  | result (value : Node) (location : Option Location)
  | operand (e : Node)
  | unsupported (location : Option Location)

/-- What the visit declares. -/
def Visit.declared : Visit → List (String × Ty)
  | assignment name _ (some type) _ => [(name, type)]
  | _ => []

mutual

/-- The visits on the walk through a tree: the step of a loop comes before the body. -/
def visits : Node → List Visit
  | .assign name value declares location => [.assignment name value declares location]
  | .binary left op right location => [.operand (.binary left op right location)]
  | .var name location => [.operand (.var name location)]
  | .int .. | .float .. | .string .. | .ret _ => []
  | .ifThen test thenBranch _ => .condition "if statement" test :: visits thenBranch
  | .ifElse test thenBranch elseBranch _ =>
    .condition "if statement" test :: (visits thenBranch ++ visits elseBranch)
  | .forLoop init test update body _ =>
    visits init ++ .condition "for loop" test :: (visits update ++ visits body)
  | .whileLoop test body _ => .condition "while statement" test :: visits body
  | .retValue value location => [.result value location]
  | .block statements _ => visitsAll statements
  | .bare location => [.unsupported location]

/-- The visits on the walk through some trees. -/
def visitsAll : List Node → List Visit
  | [] => []
  | s :: ss => visits s ++ visitsAll ss

end

/-- Makes a visit. -/
def visit (lines : List String) : Visit → Check Unit
  | .assignment name value declares location => check lines (.assign name value declares location)
  | .condition construct test => condition lines construct test
  | .result value location => check lines (.retValue value location)
  | .operand e => do
    let _ ← typed lines e
  | .unsupported location => check lines (.bare location)

/-- Makes visits in order. -/
def visitAll (lines : List String) : List Visit → Check Unit
  | [] => pure ()
  | v :: vs => do
    visit lines v
    visitAll lines vs

variable {lines : List String}

theorem visitAll_append (lines : List String) (vs vs' : List Visit) :
    visitAll lines (vs ++ vs') = visitAll lines vs >>= fun _ => visitAll lines vs' := by
  induction vs with
  | nil => exact (pure_bind () fun _ => visitAll lines vs').symm
  | cons v vs ih =>
    rw [List.cons_append, visitAll, visitAll, ih, bind_assoc]

theorem visitAll_singleton (lines : List String) (v : Visit) :
    visitAll lines [v] = visit lines v := bind_pure (visit lines v)

/-- **The check of a tree makes the visits of the walk.** -/
theorem check_eq (lines : List String) (n : Node) : check lines n = visitAll lines (visits n) := by
  induction n with
  | int | float | string | ret => rfl
  | assign | binary | var | retValue | bare =>
    rw [visits, visitAll_singleton]
    rfl
  | ifThen test thenBranch l _ iht =>
    rw [check, iht]
    rfl
  | ifElse test thenBranch elseBranch l _ iht ihe =>
    rw [check, iht, ihe, ← visitAll_append]
    rfl
  | forLoop init test update body l ihi _ ihu ihb =>
    rw [check, ihi, ihu, ihb, visits, visitAll_append, visitAll, visitAll_append]
    rfl
  | whileLoop test body l _ ihb =>
    rw [check, ihb]
    rfl
  | block ss l ih =>
    rw [check, visits]
    induction ss with
    | nil => rfl
    | cons s ss ihss =>
      obtain ⟨hs, hss⟩ := List.forall_mem_cons.1 ih
      rw [checkAll, hs, ihss hss, ← visitAll_append]
      rfl

/-! ## One visit -/

/-- The visit comes to compare a value with its target, and they do not go together: the value has a
type, and the target is in the table or enters it now. -/
def Visit.Mismatched (lines : List String) (s : Symbols) : Visit → Prop
  | assignment name value declares _ =>
    ∃ type target, typeOf lines s value = .ok type ∧ accepts target type = false ∧
      (declares = none ∧ s.find? name = some target ∨
        declares = some target ∧ s.find? name = none)
  | _ => False

/-- No expression is mismatched. -/
theorem typeOf_isMismatch {s : Symbols} {e : Node} {p : Problem}
    (h : typeOf lines s e = .error p) : (Failure.problem p).isMismatch = false := by
  induction e generalizing p with
  | var name l =>
    rw [typeOf] at h
    split at h
    · cases h
    · cases h
      rfl
  | binary left op right l ihl ihr =>
    rw [typeOf] at h
    cases hl : typeOf lines s left with
    | error q =>
      rw [hl] at h
      cases h
      exact ihl hl
    | ok a =>
      cases hr : typeOf lines s right with
      | error q =>
        rw [hl, hr] at h
        cases h
        exact ihr hr
      | ok b =>
        rw [hl, hr] at h
        change (operationType op a b).mapError (problemAt lines l) = .error p at h
        unfold operationType at h
        split_ifs at h <;> cases h <;> rfl
  | assign | int | float | string | ifThen | ifElse | forLoop | whileLoop | ret | retValue | block
  | bare => cases h

/-- Typing changes nothing, and finds no mismatch. -/
theorem typed_keeps (e : Node) (st : State) :
    Meets (typed lines e) st
      (fun type st' => st' = st ∧ typeOf lines st.symbols e = .ok type)
      fun err st' => st' = st ∧ err.isMismatch = false ∧
        ∀ type, typeOf lines st.symbols e ≠ .ok type := by
  cases h : typeOf lines st.symbols e with
  | ok type => exact .ok (typed_of_ok h) ⟨rfl, rfl⟩
  | error p => exact .error (typed_of_error h) ⟨rfl, typeOf_isMismatch h, nofun⟩

theorem condition_keeps (construct : String) (test : Node) (st : State) :
    Meets (condition lines construct test) st (fun _ st' => st' = st)
      fun e st' => st' = st ∧ e.isMismatch = false := by
  unfold condition
  refine (typed_keeps test st).andThen ?_ fun _ _ h => ⟨h.1, h.2.1⟩
  rintro type - ⟨rfl, -⟩
  split_ifs
  · exact .pure rfl
  · exact .throw ⟨rfl, rfl⟩

theorem declare_keeps (name : String) (type : Ty) (l : Option Location) (st : State) :
    Meets (declare lines name type l) st
      (fun _ st' => st.symbols.find? name = none ∧ st'.symbols = st.symbols.set name type)
      fun e st' => st' = st ∧ e.isMismatch = false ∧ st.symbols.find? name ≠ none := by
  unfold declare
  refine .bind (.ok rfl ?_)
  cases h : st.symbols.find? name with
  | some present => exact .throw ⟨rfl, rfl, nofun⟩
  | none => exact .ok rfl ⟨rfl, rfl⟩

/-- The comparison of a value with its target changes no entry, and fails without a mismatch only
where there is no target. -/
theorem assign_keeps (name : String) (value : Ty) (l : Option Location) (st : State) :
    Meets (assign lines name value l) st (fun _ st' => st'.symbols = st.symbols)
      fun e st' => st'.symbols = st.symbols ∧
        (e.isMismatch = true ∧ (∃ target, st.symbols.find? name = some target ∧
            accepts target value = false) ∨
          e.isMismatch = false ∧ st.symbols.find? name = none) := by
  unfold assign
  refine .bind (.ok rfl ?_)
  cases h : st.symbols.find? name with
  | none => exact .throw ⟨rfl, .inr ⟨rfl, rfl⟩⟩
  | some target =>
    dsimp only
    split_ifs with hwidened hsame
    · exact .ok rfl rfl
    · exact .pure rfl
    · refine .throw ⟨rfl, .inl ⟨rfl, target, rfl, ?_⟩⟩
      rw [accepts, decide_eq_false hsame, Bool.eq_false_iff.2 hwidened]
      rfl

/-- What a visit leaves in the table if it fails: what it declares, if the problem is a mismatch. -/
def Visit.remains (v : Visit) (e : Failure) : List (String × Ty) :=
  if e.isMismatch then v.declared else []

/-- A visit that fails adds what remains of it, and the problem is a mismatch iff a value did not go
with its target. -/
structure Visit.Fails (lines : List String) (v : Visit) (s : Symbols) (e : Failure)
    (s' : Symbols) : Prop where
  mismatch : e.isMismatch = true ↔ v.Mismatched lines s
  grows : s.GrowsBy (v.remains e) s'

namespace Visit

variable {v : Visit} {s s' : Symbols} {e : Failure}

theorem Fails.of_match (h : e.isMismatch = false) (hv : ¬ v.Mismatched lines s) :
    v.Fails lines s e s where
  mismatch := by
    rw [h]
    exact ⟨nofun, fun hmismatched => absurd hmismatched hv⟩
  grows := by
    rw [remains, h, if_neg Bool.false_ne_true]
    exact .refl s

theorem Fails.of_mismatch (h : e.isMismatch = true) (hv : v.Mismatched lines s)
    (hs : s.GrowsBy v.declared s') : v.Fails lines s e s' where
  mismatch := ⟨fun _ => hv, fun _ => h⟩
  grows := by
    rw [remains, if_pos h]
    exact hs

/-- The visit adds what it declares, and if it fails, what remains of it. -/
def Keeps (lines : List String) (v : Visit) (st : State) : Prop :=
  Meets (visit lines v) st (fun _ st' => st.symbols.GrowsBy v.declared st'.symbols)
    fun e st' => v.Fails lines st.symbols e st'.symbols

/-- An assignment of a typed value to a variable that is there. -/
theorem keeps_set (name : String) (value : Node) (l : Option Location) {st : State} {type : Ty}
    (htype : typeOf lines st.symbols value = .ok type) :
    Meets (assign lines name type l) st (fun _ st' => st.symbols.GrowsBy [] st'.symbols)
      fun e st' => (assignment name value none l).Fails lines st.symbols e st'.symbols := by
  refine (assign_keeps name type l st).mono ?_ ?_
  · intro _ st' hst
    rw [hst]
    exact .refl _
  · rintro e st' ⟨hst, ⟨hmismatch, target, htarget, haccepts⟩ | ⟨hmatch, hnone⟩⟩
    · rw [hst]
      exact .of_mismatch hmismatch ⟨type, target, htype, haccepts, .inl ⟨rfl, htarget⟩⟩ (.refl _)
    · rw [hst]
      refine .of_match hmatch ?_
      rintro ⟨_, target, -, -, ⟨-, htarget⟩ | ⟨hdeclares, -⟩⟩
      · cases hnone.symm.trans htarget
      · cases hdeclares

/-- An assignment of a typed value to a variable that it declares. -/
theorem keeps_declare (name : String) (value : Node) (declared : Ty) (l : Option Location)
    {st : State} {type : Ty} (htype : typeOf lines st.symbols value = .ok type) :
    Meets (declare lines name declared l >>= fun _ => assign lines name type l) st
      (fun _ st' => st.symbols.GrowsBy [(name, declared)] st'.symbols)
      fun e st' => (assignment name value (some declared) l).Fails lines st.symbols e
        st'.symbols := by
  refine (declare_keeps name declared l st).andThen ?_ ?_
  · rintro - st₁ ⟨hfresh, hset⟩
    refine (assign_keeps name type l st₁).mono ?_ ?_
    · intro _ st' hst
      rw [hst, hset]
      exact .set hfresh declared
    · -- The target is there now, so that only the comparison can fail.
      rw [hset, find?_set, if_pos rfl]
      rintro e st' ⟨hst, ⟨hmismatch, target, htarget, haccepts⟩ | ⟨-, hnone⟩⟩
      · cases htarget
        rw [hst]
        exact .of_mismatch hmismatch ⟨type, declared, htype, haccepts, .inr ⟨rfl, hfresh⟩⟩
          (.set hfresh declared)
      · cases hnone
  · rintro e st' ⟨rfl, hmatch, hpresent⟩
    refine .of_match hmatch ?_
    rintro ⟨_, _, -, -, ⟨hdeclares, -⟩ | ⟨-, hfresh⟩⟩
    · cases hdeclares
    · exact hpresent hfresh

/-- A visit that declares nothing and compares nothing. -/
theorem keeps_of_steady {st : State} (hdeclared : v.declared = [])
    (hv : ¬ v.Mismatched lines st.symbols)
    (h : Meets (visit lines v) st (fun _ st' => st' = st)
      fun e st' => st' = st ∧ e.isMismatch = false) : v.Keeps lines st := by
  refine Meets.mono h ?_ ?_
  · rintro - - rfl
    rw [hdeclared]
    exact .refl _
  · rintro e st' ⟨rfl, hmatch⟩
    exact .of_match hmatch hv

/-- **What a visit leaves in the table.** -/
theorem keeps (lines : List String) (v : Visit) (st : State) : v.Keeps lines st := by
  cases v with
  | assignment name value declares l =>
    unfold Keeps
    rw [visit, check]
    refine (typed_keeps value st).andThen ?_ ?_
    · rintro type st' ⟨rfl, htype⟩
      cases declares with
      | none => exact keeps_set name value l htype
      | some declared => exact keeps_declare name value declared l htype
    · rintro e st' ⟨rfl, hmatch, htype⟩
      refine .of_match hmatch ?_
      rintro ⟨type, _, hok, -⟩
      exact htype type hok
  | condition construct test => exact keeps_of_steady rfl id (condition_keeps construct test st)
  | result value l =>
    refine keeps_of_steady rfl id ?_
    rw [visit, check]
    refine (typed_keeps value st).andThen ?_ fun _ _ h => ⟨h.1, h.2.1⟩
    rintro type - ⟨rfl, -⟩
    split_ifs
    · exact .throw ⟨rfl, rfl⟩
    · exact .pure rfl
  | operand e =>
    refine keeps_of_steady rfl id ((typed_keeps e st).andThen ?_ fun _ _ h => ⟨h.1, h.2.1⟩)
    rintro type - ⟨rfl, -⟩
    exact .pure rfl
  | unsupported l => exact keeps_of_steady rfl id (.throw ⟨rfl, rfl⟩)

end Visit

/-! ## Walks -/

/-- What is declared on a walk. -/
def declaredBy (vs : List Visit) : List (String × Ty) := vs.flatMap Visit.declared

/-- **What a walk leaves in the table.** -/
theorem visitAll_keeps (lines : List String) (vs : List Visit) (st : State) :
    Meets (visitAll lines vs) st (fun _ st' => st.symbols.GrowsBy (declaredBy vs) st'.symbols)
      fun e st' => ∃ before failing after st₁, vs = before ++ failing :: after ∧
        visitAll lines before st = .ok () st₁ ∧ visit lines failing st₁ = .error e st' ∧
        (e.isMismatch = true ↔ failing.Mismatched lines st₁.symbols) ∧
        st.symbols.GrowsBy (declaredBy before ++ failing.remains e) st'.symbols := by
  induction vs generalizing st with
  | nil => exact .pure (.refl _)
  | cons v vs ih =>
    rw [visitAll]
    cases hv : visit lines v st with
    | error e st' =>
      -- The first visit is the one that fails.
      have hfails := (v.keeps lines st).of_error hv
      exact .bind (.error hv ⟨[], v, vs, st, rfl, rfl, hv, hfails.mismatch, hfails.grows⟩)
    | ok u st₁ =>
      have hgrows := (v.keeps lines st).of_ok hv
      refine .bind (.ok hv ((ih st₁).mono ?_ ?_))
      · exact fun _ st' hgrows' => hgrows.trans hgrows'
      · rintro e st' ⟨before, failing, after, st₂, rfl, hbefore, hfailing, hmismatch, hgrows'⟩
        refine ⟨v :: before, failing, after, st₂, rfl, ?_, hfailing, hmismatch, ?_⟩
        · rw [visitAll, bind_of_ok hv, hbefore]
        · rw [declaredBy, List.flatMap_cons, List.append_assoc]
          exact hgrows.trans hgrows'

/-- **What a check leaves in its table**, whether it succeeds or fails. -/
theorem check_survivors (lines : List String) (n : Node) (st : State) :
    st.symbols.Extends (run (check lines n) st).2.symbols ∧
    Meets (check lines n) st
      (fun _ st' => st.symbols.GrowsBy (declaredBy (visits n)) st'.symbols)
      fun e st' => ∃ before failing after st₁, visits n = before ++ failing :: after ∧
        visitAll lines before st = .ok () st₁ ∧ visit lines failing st₁ = .error e st' ∧
        (e.isMismatch = true ↔ failing.Mismatched lines st₁.symbols) ∧
        st.symbols.GrowsBy (declaredBy before ++ if e.isMismatch then failing.declared else [])
          st'.symbols := by
  rw [check_eq]
  have hkeeps := visitAll_keeps lines (visits n) st
  refine ⟨?_, hkeeps⟩
  unfold run
  cases h : visitAll lines (visits n) st with
  | ok u st' => exact (hkeeps.of_ok h).extends
  | error e st' =>
    obtain ⟨_, _, _, _, -, -, -, -, hgrows⟩ := hkeeps.of_error h
    exact hgrows.extends

/-- The value does not go with its target, which stays declared. -/
example : (run (check [] (.assign "x" (.float 0.5 none) (some .int) none)) {}).2.symbols.entries =
    [("x", .int)] := rfl

/-- The value has no type, and its target is not declared. -/
example : (run (check [] (.assign "x" (.var "x" none) (some .int) none)) {}).2.symbols.entries =
    [] := rfl

end Typing

end ThreeAddress
