import ThreeAddress.Folding
import ThreeAddress.Proofs.Literal.Written
import ThreeAddress.Proofs.Steps
import ThreeAddress.Proofs.Tree.Shape
import ThreeAddress.Typing

/-!
# Folding and typing commute

The check cannot tell a folded tree from the tree itself. Two nodes are `Alike` for the check if
they stand at one place, have one type (or one problem) under every table of variables, and have one
check, with the same table, notices and problem in the end.

**Theorem (`check_fold`).** What a tree is folded to is alike to the tree.

The proof follows the tree. Where an operation is carried out, both the operation and its result
have the type that `operationType` gives to two literals; where an integer becomes a float in an
operation that is kept, the other operand is a float already, so the operation has the type of
floats before and after. Everything else is congruence: the check looks at the parts of a node only
through their places, types and checks.
-/

namespace ThreeAddress.Typing

open Folding

variable {lines : List String}

/-! ## Alike nodes -/

/-- The check cannot tell the nodes apart. -/
structure Alike (lines : List String) (n n' : Node) : Prop where
  location : n.location = n'.location
  type : ∀ s, typeOf lines s n = typeOf lines s n'
  check : check lines n = check lines n'

theorem Alike.refl (n : Node) : Alike lines n n := ⟨rfl, fun _ => rfl, rfl⟩

theorem Alike.trans {n n' n'' : Node} (h : Alike lines n n') (h' : Alike lines n' n'') :
    Alike lines n n'' :=
  ⟨h.location.trans h'.location, fun s => (h.type s).trans (h'.type s), h.check.trans h'.check⟩

theorem typed_congr {n n' : Node} (h : ∀ s, typeOf lines s n = typeOf lines s n') :
    typed lines n = typed lines n' := by
  unfold typed
  simp only [h]

theorem condition_congr {n n' : Node} (h : Alike lines n n') (construct : String) :
    condition lines construct n = condition lines construct n' := by
  unfold condition
  rw [typed_congr h.type, h.location]

/-- The node is checked by finding its type. -/
def CheckedByType (lines : List String) (n : Node) : Prop :=
  check lines n = do let _ ← typed lines n

theorem checkedByType_int (a : Int) (l : Option Location) : CheckedByType lines (.int a l) := by
  unfold CheckedByType check
  rfl

theorem checkedByType_float (x : Float) (l : Option Location) :
    CheckedByType lines (.float x l) := by
  unfold CheckedByType check
  rfl

theorem checkedByType_binary (left right : Node) (op : Operator) (l : Option Location) :
    CheckedByType lines (.binary left op right l) := by
  unfold CheckedByType
  rw [check]

/-- Of nodes that are checked by their types, only the types count. -/
theorem Alike.of_type {n n' : Node} (hn : CheckedByType lines n) (hn' : CheckedByType lines n')
    (hlocation : n.location = n'.location) (htype : ∀ s, typeOf lines s n = typeOf lines s n') :
    Alike lines n n' where
  location := hlocation
  type := htype
  check := by rw [hn, hn', typed_congr htype]

section Congruence

/-! Alike parts can be put in each other's place. -/

variable {c c' t t' e e' b b' : Node} {l : Option Location}

theorem Alike.binary {left left' right right' : Node} (op : Operator)
    (hleft : Alike lines left left') (hright : Alike lines right right') :
    Alike lines (.binary left op right l) (.binary left' op right' l) := by
  refine .of_type (checkedByType_binary ..) (checkedByType_binary ..) rfl fun s => ?_
  simp only [typeOf, hleft.type, hright.type]

theorem Alike.ifThen (hc : Alike lines c c') (ht : Alike lines t t') :
    Alike lines (.ifThen c t l) (.ifThen c' t' l) where
  location := rfl
  type _ := rfl
  check := by rw [Typing.check, Typing.check, condition_congr hc, ht.check]

theorem Alike.ifElse (hc : Alike lines c c') (ht : Alike lines t t') (he : Alike lines e e') :
    Alike lines (.ifElse c t e l) (.ifElse c' t' e' l) where
  location := rfl
  type _ := rfl
  check := by rw [Typing.check, Typing.check, condition_congr hc, ht.check, he.check]

theorem Alike.forLoop (i u : Node) (hb : Alike lines b b') :
    Alike lines (.forLoop i c u b l) (.forLoop i c u b' l) where
  location := rfl
  type _ := rfl
  check := by rw [Typing.check, Typing.check, hb.check]

theorem Alike.whileLoop (hb : Alike lines b b') :
    Alike lines (.whileLoop c b l) (.whileLoop c b' l) where
  location := rfl
  type _ := rfl
  check := by rw [Typing.check, Typing.check, hb.check]

theorem Alike.retValue (he : Alike lines e e') :
    Alike lines (.retValue e l) (.retValue e' l) where
  location := rfl
  type _ := rfl
  check := by rw [Typing.check, Typing.check, typed_congr he.type]

end Congruence

/-! ## One operation -/

section Operation

variable {p q l : Option Location}

/-- An operation on integers has the type of its result. -/
theorem Alike.int_result (result a b : Int) (op : Operator) :
    Alike lines (.int result l) (.binary (.int a p) op (.int b q) l) :=
  .of_type (checkedByType_int ..) (checkedByType_binary ..) rfl fun _ => rfl

/-- So has an operation on floats, also if one of them was an integer. -/
theorem Alike.float_result {left right : Node} (result x y : Float) (op : Operator)
    (h : Alike lines (.binary (.float x p) op (.float y q) l) (.binary left op right l)) :
    Alike lines (.float result l) (.binary left op right l) :=
  .of_type (checkedByType_float ..) (checkedByType_binary ..) rfl fun s => h.type s

theorem Alike.promote_left (a : Int) (x y : Float) (op : Operator) :
    Alike lines (.binary (.float x p) op (.float y q) l) (.binary (.int a p) op (.float y q) l) :=
  .of_type (checkedByType_binary ..) (checkedByType_binary ..) rfl fun _ => rfl

theorem Alike.promote_right (b : Int) (x y : Float) (op : Operator) :
    Alike lines (.binary (.float x p) op (.float y q) l) (.binary (.float x p) op (.int b q) l) :=
  .of_type (checkedByType_binary ..) (checkedByType_binary ..) rfl fun _ => rfl

theorem ints_alike (a b : Int) (op : Operator) (notices : List Notice) :
    Meets (ints a op b l (.binary (.int a p) op (.int b q) l)) notices
      (fun n _ => Alike lines n (.binary (.int a p) op (.int b q) l)) fun _ _ => True := by
  unfold ints
  by_cases hzero : op = .div ∧ b = 0
  · rw [if_pos hzero]
    exact .throw trivial
  · rw [if_neg hzero]
    cases intResult? op a b with
    | none => exact .pure (.refl _)
    | some result =>
      dsimp only
      generalize Literal.hasText result = printable
      cases printable with
      | true => exact .bind (.ok rfl (.pure (.int_result ..)))
      | false => exact .bind (.ok rfl (.pure (.refl _)))

/-- The operation that is kept is alike to the one that was to be folded. -/
theorem floats_alike {left right : Node} {x y : Float} {op : Operator}
    (h : Alike lines (.binary (.float x p) op (.float y q) l) (.binary left op right l))
    (notices : List Notice) :
    Meets (floats x op y l (.binary (.float x p) op (.float y q) l)) notices
      (fun n _ => Alike lines n (.binary left op right l)) fun _ _ => True := by
  unfold floats
  cases floatResult? op x y with
  | none => exact .pure h
  | some result => exact .bind (.ok rfl (.pure (.float_result _ _ _ _ h)))

variable (lines l) in
/-- **One operation on folded operands.** -/
theorem operation_alike (left : Node) (op : Operator) (right : Node) (notices : List Notice) :
    Meets (operation left op right l) notices
      (fun n _ => Alike lines n (.binary left op right l)) fun _ _ => True := by
  unfold operation
  split
  · exact ints_alike _ _ _ notices
  · exact floats_alike (.refl _) notices
  · next a place y q =>
    cases promote? a with
    | none => exact .bind (.ok rfl (.pure (.refl _)))
    | some x => exact floats_alike (.promote_left ..) notices
  · next x p b place =>
    cases promote? b with
    | none => exact .bind (.ok rfl (.pure (.refl _)))
    | some y => exact floats_alike (.promote_right ..) notices
  · exact .pure (.refl _)

end Operation

/-! ## Trees -/

theorem fold_alike (lines : List String) (n : Node) (notices : List Notice) :
    Meets (fold n) notices (fun n' _ => Alike lines n' n) fun _ _ => True := by
  induction n generalizing notices with
  | binary left op right l ihl ihr =>
    rw [fold]
    refine (ihl notices).andThen (fun left' notices hl => ?_) fun _ _ h => h
    refine (ihr notices).andThen (fun right' notices hr => ?_) fun _ _ h => h
    have hoperation := operation_alike lines l left' op right' notices
    exact hoperation.mono (fun n' _ h => h.trans (.binary op hl hr)) fun _ _ h => h
  | int | float | string | var | assign | ret | block => exact .pure (.refl _)
  | ifThen c t l ihc iht =>
    rw [fold]
    refine (ihc notices).andThen (fun c' notices hc => ?_) fun _ _ h => h
    refine (iht notices).andThen (fun t' notices ht => ?_) fun _ _ h => h
    exact .pure (hc.ifThen ht)
  | ifElse c t e l ihc iht ihe =>
    rw [fold]
    refine (ihc notices).andThen (fun c' notices hc => ?_) fun _ _ h => h
    refine (iht notices).andThen (fun t' notices ht => ?_) fun _ _ h => h
    refine (ihe notices).andThen (fun e' notices he => ?_) fun _ _ h => h
    exact .pure (hc.ifElse ht he)
  | forLoop i c u b l _ _ _ ihb =>
    rw [fold]
    refine (ihb notices).andThen (fun b' notices hb => ?_) fun _ _ h => h
    exact .pure (hb.forLoop i u)
  | whileLoop c b l _ ihb =>
    rw [fold]
    refine (ihb notices).andThen (fun b' notices hb => ?_) fun _ _ h => h
    exact .pure hb.whileLoop
  | retValue e l ih =>
    rw [fold]
    refine (ih notices).andThen (fun e' notices he => ?_) fun _ _ h => h
    exact .pure he.retValue
  | bare l => exact .throw trivial

/-- **Folding and typing commute.** A folded tree stands where the tree stood, has its type or its
problem under every table, and is checked from every state with the same outcome, the same table and
the same notices. -/
theorem check_fold {lines : List String} {n n' : Node} {notices notices' : List Notice}
    (h : fold n notices = .ok n' notices') :
    n'.location = n.location ∧
      (∀ symbols, typeOf lines symbols n' = typeOf lines symbols n) ∧
      ∀ state, run (check lines n') state = run (check lines n) state := by
  have halike := (fold_alike lines n notices).of_ok h
  refine ⟨halike.location, halike.type, ?_⟩
  intro state
  rw [halike.check]

theorem ints_of_hasText {a b result : Int} {op : Operator} {l : Option Location} {kept : Node}
    (hdiv : ¬ (op = .div ∧ b = 0)) (hresult : intResult? op a b = some result)
    (htext : Literal.hasText result = true) :
    ints a op b l kept = (do
      Work.tell (.foldedInts a op b result)
      return .int result l) := by
  unfold ints
  rw [if_neg hdiv, hresult]
  simp only [htext, if_true]

/-- In `return 2 * 3 + x;` the product is folded; the sum has a problem if `x` is a string. -/
theorem check_fold_return :
    let place : Int → Option Location := fun column => some ⟨"", 1, column, column - 1⟩
    let product : Node := .binary (.int 2 (place 8)) .mul (.int 3 (place 12)) (place 10)
    let tree : Node → Node := fun left =>
      .retValue (.binary left .add (.var "x" (place 16)) (place 14)) (place 1)
    fold (tree product) [] = .ok (tree (.int 6 (place 10))) [.foldedInts 2 .mul 3 6] ∧
      ∀ state, run (check [] (tree (.int 6 (place 10)))) state =
        run (check [] (tree product)) state := by
  intro place product tree
  have hsix : Literal.hasText (Literal.value [6]) = true :=
    Literal.hasText_value (by decide) (by decide)
  rw [show (Literal.value [6] : Int) = 6 from rfl] at hsix
  have hproduct : fold product [] = .ok (.int 6 (place 10)) [.foldedInts 2 .mul 3 6] := by
    show fold (.binary (.int 2 (place 8)) .mul (.int 3 (place 12)) (place 10)) [] = _
    rw [fold]
    have hleft : fold (.int 2 (place 8)) [] = .ok (.int 2 (place 8)) [] := rfl
    have hright : fold (.int 3 (place 12)) [] = .ok (.int 3 (place 12)) [] := rfl
    refine (bind_of_ok hleft).trans ((bind_of_ok hright).trans ?_)
    rw [operation, ints_of_hasText (by decide) rfl hsix]
    rfl
  have hsum : fold (.binary product .add (.var "x" (place 16)) (place 14)) [] =
      .ok (.binary (.int 6 (place 10)) .add (.var "x" (place 16)) (place 14))
        [.foldedInts 2 .mul 3 6] := by
    rw [fold]
    exact bind_of_ok hproduct
  have hfold : fold (tree product) [] =
      .ok (tree (.int 6 (place 10))) [.foldedInts 2 .mul 3 6] := by
    show fold (.retValue _ _) [] = _
    rw [fold]
    exact bind_of_ok hsum
  exact ⟨hfold, (check_fold hfold).2.2⟩

end ThreeAddress.Typing
