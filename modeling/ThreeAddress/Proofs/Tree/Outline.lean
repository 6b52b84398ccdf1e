import ThreeAddress.Proofs.Tree.Entries
import ThreeAddress.Proofs.Tree.Inline

/-!
# The outline is unambiguous

**Theorem** (`map_unplaced_eq_of_entriesAll`): the entries of an outline determine the statements
up to places.

What an entry says fixes the kind of its node, but not where the parts of the node end: that shows
in the depth only. So a statement at some depth is aligned with another as long as what stands
behind is `Shallow`: there the list of a block ends, and there a branch has no alternative.
Expressions need no such condition, since each kind has a fixed number of parts.
-/

namespace ThreeAddress

namespace Node

/-! ## Captions -/

/-- The first character of the caption. -/
def mark : Node → Char
  | assign .. | bare .. => 'A'
  | binary .. => 'B'
  | int .. | ifThen .. | ifElse .. => 'I'
  | float .. | forLoop .. => 'F'
  | string .. => 'S'
  | var .. => 'V'
  | whileLoop .. => 'W'
  | ret .. | retValue .. => 'R'
  | block .. => '\x7b'

theorem head?_caption (n : Node) : n.caption.toList.head? = some n.mark := by
  have happend : ∀ {s : String} {c : Char} (t : String), s.toList.head? = some c →
      (s ++ t).toList.head? = some c := by
    intro s c t hs
    rw [String.toList_append, List.head?_append, hs]
    rfl
  cases n with
  | assign => exact happend _ (happend _ rfl)
  | binary | int | float | string | var => exact happend _ rfl
  | ifThen | ifElse => exact (rfl : "If Statement".toList.head? = some 'I')
  | forLoop => exact (rfl : "For Loop".toList.head? = some 'F')
  | whileLoop => exact (rfl : "While Loop".toList.head? = some 'W')
  | ret | retValue => exact (rfl : "Return".toList.head? = some 'R')
  | block => exact (rfl : "\x7bBlock\x7d".toList.head? = some '\x7b')
  | bare => exact (rfl : "ASTNode".toList.head? = some 'A')

theorem head?_entries (n : Node) (depth : Nat) :
    (n.entries depth).head? = some ⟨depth, n.caption⟩ := by
  cases n <;> rfl

/-- Entries with different first characters are never equal. -/
theorem aligns_of_mark_ne {a b : Node} {depth : Nat} {P : Prop} (h : a.mark ≠ b.mark) :
    Aligns (a.entries depth) (b.entries depth) P := by
  refine .of_head_ne (head?_entries a depth) (head?_entries b depth) fun heq => h ?_
  have hcaption : a.caption = b.caption := congrArg Entry.text heq
  exact Option.some.inj (by rw [← head?_caption, hcaption, head?_caption])

end Node

/-! ## Alignment of entries -/

section Alignment

variable {u v w w' : List Entry} {B : List Entry → Prop} {P Q : Prop} {depth : Nat}
  {s t label : String}

theorem Aligns.entry (h : Aligns u v P) :
    Aligns (⟨depth, s⟩ :: u : List Entry) (⟨depth, t⟩ :: v) (s = t ∧ P) :=
  h.cons.mono fun ⟨heq, hP⟩ => ⟨congrArg Entry.text heq, hP⟩

theorem AlignsBefore.entry (h : AlignsBefore B u v P) :
    AlignsBefore B (⟨depth, s⟩ :: u) (⟨depth, t⟩ :: v) (s = t ∧ P) :=
  h.cons.mono fun ⟨heq, hP⟩ => ⟨congrArg Entry.text heq, hP⟩

/-- No entry at the start is deeper. -/
def Shallow (depth : Nat) (entries : List Entry) : Prop := ∀ e ∈ entries.head?, e.depth ≤ depth

theorem shallow_nil : Shallow depth [] := fun _ he => absurd he (Option.not_mem_none _)

theorem shallow_cons {e : Entry} {entries : List Entry} :
    Shallow depth (e :: entries) ↔ e.depth ≤ depth := by
  simp [Shallow]

theorem Shallow.mono {depth' : Nat} {entries : List Entry} (h : Shallow depth entries)
    (hle : depth ≤ depth') : Shallow depth' entries :=
  fun e he => (h e he).trans hle

theorem Shallow.labelled {entries more : List Entry} :
    Shallow (depth + 1) (labelled depth label entries ++ more) :=
  shallow_cons.2 (Nat.le_succ depth)

/-- What is deeper is not what stands behind. -/
theorem aligns_nil_deeper {e : Entry} {entries : List Entry} (h : depth < e.depth) :
    AlignsBefore (Shallow depth) [] (e :: entries) P := by
  intro r r' hr _ heq
  rw [List.nil_append] at heq
  rw [heq] at hr
  exact absurd (shallow_cons.1 hr) (by omega)

theorem AlignsBefore.below (h : AlignsBefore B u v P) (depth : Nat) (label : String) :
    AlignsBefore B (labelled depth label u) (labelled depth label v) P := h.entry.mono And.right

/-- The last part below a label ends where its parent does. -/
theorem AlignsBefore.last (h : AlignsBefore (Shallow (depth + 2)) u v P) :
    AlignsBefore (Shallow depth) u v P :=
  h.restrict fun _ hr => hr.mono (by omega)

/-- A part below a label ends at the next label. -/
theorem AlignsBefore.followed (h : AlignsBefore (Shallow (depth + 2)) u v P)
    (h' : AlignsBefore (Shallow depth) (labelled (depth + 1) label w)
      (labelled (depth + 1) label w') Q) :
    AlignsBefore (Shallow depth) (u ++ labelled (depth + 1) label w)
      (v ++ labelled (depth + 1) label w') (P ∧ Q) :=
  h.append h' (fun _ _ => .labelled) (fun _ _ => .labelled)

end Alignment

namespace Node

/-! ## Expressions -/

theorem LegibleExpression.mark_ne {e : Node} (he : e.LegibleExpression) : e.mark ≠ '(' := by
  cases he <;> simp [mark]

/-- **The entries of an expression determine the expression.** -/
theorem LegibleExpression.aligns_entries {a b : Node} (ha : a.LegibleExpression)
    (hb : b.LegibleExpression) (depth : Nat) :
    Aligns (a.entries depth) (b.entries depth) (a.unplaced = b.unplaced) := by
  induction ha generalizing b depth with
  | @int m l =>
    cases hb with
    | @int n l' =>
      refine (Aligns.same []).entry.mono ?_
      rintro ⟨hcaption, -⟩
      have htext := (String.append_right_inj "Integer: ").1 hcaption
      exact LegibleExpression.int.unplaced_eq .int htext
    | _ => exact aligns_of_mark_ne (by simp [mark])
  | @float x l =>
    cases hb with
    | @float y l' =>
      refine (Aligns.same []).entry.mono ?_
      rintro ⟨hcaption, -⟩
      have htext := (String.append_right_inj "Float: ").1 hcaption
      exact LegibleExpression.float.unplaced_eq .float htext
    | _ => exact aligns_of_mark_ne (by simp [mark])
  | @string s l hs =>
    cases hb with
    | @string t l' ht =>
      refine (Aligns.same []).entry.mono ?_
      rintro ⟨hcaption, -⟩
      have htext := (String.append_right_inj "String: ").1 hcaption
      exact (LegibleExpression.string hs).unplaced_eq (.string ht) htext
    | _ => exact aligns_of_mark_ne (by simp [mark])
  | @var x l hx =>
    cases hb with
    | @var y l' hy =>
      refine (Aligns.same []).entry.mono ?_
      rintro ⟨hcaption, -⟩
      have htext := (String.append_right_inj "VarNode: ").1 hcaption
      simp only [unplaced, mapPlaces, htext]
    | _ => exact aligns_of_mark_ne (by simp [mark])
  | @binary left right op l hop _ _ ihl ihr =>
    cases hb with
    | @binary left' right' op' l' hop' hl' hr' =>
      refine ((ihl hl' _).append (ihr hr' _)).entry.mono ?_
      rintro ⟨hcaption, hleft, hright⟩
      have hsymbol := (String.append_right_inj "Binary Operation: ").1 hcaption
      have hop : op = op' := Operator.eq_of_symbol_eq hop hop' hsymbol
      simp only [unplaced, mapPlaces] at hleft hright ⊢
      rw [hleft, hop, hright]
    | _ => exact aligns_of_mark_ne (by simp [mark])

/-! ## Statements -/

/-- A branch without an alternative ends where one with an alternative has a label. -/
theorem aligns_entries_ifThen_ifElse {condition condition' thenBranch thenBranch' elseBranch : Node}
    {l l' : Option Location} {depth : Nat} {P Q : Prop}
    (hcondition : Aligns (condition.entries (depth + 2)) (condition'.entries (depth + 2)) P)
    (hthen : AlignsBefore (Shallow (depth + 2)) (thenBranch.entries (depth + 2))
      (thenBranch'.entries (depth + 2)) Q) :
    AlignsBefore (Shallow depth) ((ifThen condition thenBranch l).entries depth)
      ((ifElse condition' thenBranch' elseBranch l').entries depth) False := by
  have hnever : AlignsBefore (Shallow depth) []
      (labelled (depth + 1) "Else" (elseBranch.entries (depth + 2))) False :=
    aligns_nil_deeper (Nat.lt_succ_self depth)
  have hthen := hthen.append hnever (fun r hr => hr.mono (by omega)) (fun _ _ => .labelled)
  rw [List.append_nil] at hthen
  have hall := hcondition.appendBefore (hthen.below (depth + 1) "Then")
  exact (hall.below (depth + 1) "Condition").entry.mono fun ⟨_, _, _, h⟩ => h

/-- A return without a value has an entry that no expression has. -/
theorem aligns_entries_ret_retValue {value : Node} {l l' : Option Location} {depth : Nat}
    (hvalue : value.LegibleExpression) :
    Aligns ((ret l).entries depth) ((retValue value l').entries depth) False := by
  have hempty : Aligns [(⟨depth + 1, "(empty)"⟩ : Entry)] (value.entries (depth + 1)) False := by
    refine .of_head_ne rfl (head?_entries value _) fun heq => hvalue.mark_ne ?_
    have hcaption : "(empty)" = value.caption := congrArg Entry.text heq
    have hmark := head?_caption value
    rw [← hcaption] at hmark
    exact (Option.some.inj hmark).symm
  exact hempty.entry.mono And.right

/-- The entries of the statements in a block end where the depth does. -/
theorem aligns_entriesAll {ss ts : List Node} {depth : Nat}
    (hss : ∀ s ∈ ss, ∀ {t : Node}, t.LegibleStatement →
      AlignsBefore (Shallow (depth + 1)) (s.entries (depth + 1)) (t.entries (depth + 1))
        (s.unplaced = t.unplaced))
    (hts : ∀ t ∈ ts, t.LegibleStatement) :
    AlignsBefore (Shallow depth) (entriesAll (depth + 1) ss) (entriesAll (depth + 1) ts)
      (ss.map unplaced = ts.map unplaced) := by
  have hnever : ∀ {t : Node} {ts : List Node} {P : Prop},
      AlignsBefore (Shallow depth) [] (entriesAll (depth + 1) (t :: ts)) P := by
    intro t ts P
    obtain ⟨es, hes⟩ := List.head?_eq_some_iff.1 (head?_entries t (depth + 1))
    rw [entriesAll, hes]
    exact aligns_nil_deeper (Nat.lt_succ_self depth)
  have hshallow : ∀ (ss : List Node) (r : List Entry), Shallow depth r →
      Shallow (depth + 1) (entriesAll (depth + 1) ss ++ r) := by
    intro ss r hr
    cases ss with
    | nil => exact hr.mono (Nat.le_succ depth)
    | cons s ss =>
      obtain ⟨es, hes⟩ := List.head?_eq_some_iff.1 (head?_entries s (depth + 1))
      rw [entriesAll, hes]
      exact shallow_cons.2 (Nat.le_refl _)
  induction ss generalizing ts with
  | nil =>
    cases ts with
    | nil => exact ((Aligns.same []).mono fun _ => rfl).before _
    | cons t ts => exact hnever
  | cons s ss ih =>
    obtain ⟨hs, hss⟩ := List.forall_mem_cons.1 hss
    cases ts with
    | nil => exact hnever.symm
    | cons t ts =>
      obtain ⟨ht, hts⟩ := List.forall_mem_cons.1 hts
      refine ((hs ht).append (ih hss hts) (hshallow ss) (hshallow ts)).mono ?_
      rintro ⟨hfirst, hmore⟩
      rw [List.map_cons, List.map_cons, hfirst, hmore]

/-- **The entries of a statement determine the statement**, as long as no deeper entry follows. -/
theorem LegibleStatement.aligns_entries {a b : Node} (ha : a.LegibleStatement)
    (hb : b.LegibleStatement) (depth : Nat) :
    AlignsBefore (Shallow depth) (a.entries depth) (b.entries depth) (a.unplaced = b.unplaced) := by
  induction ha generalizing b depth with
  | assign hdeclares hname hvalue =>
    cases hb with
    | assign hdeclares' hname' hvalue' =>
      refine ((hvalue.aligns_entries hvalue' _).entry.mono ?_).before _
      rintro ⟨hcaption, hvalue⟩
      have htarget := Aligns.target (u := "AssignNode: ".toList) hdeclares hdeclares' hname hname'
      simp only [← String.toList_append] at htarget
      obtain ⟨rfl, rfl⟩ := htarget.of_eq (congrArg (fun s => (s ++ " = ").toList) hcaption)
      simp only [unplaced, mapPlaces] at hvalue ⊢
      rw [hvalue]
    | _ => exact (aligns_of_mark_ne (by simp [mark])).before _
  | block hss ih =>
    cases hb with
    | block hts =>
      have hitems := aligns_entriesAll (fun s hs t ht => ih s hs ht (depth + 1)) hts
      refine hitems.entry.mono ?_
      rintro ⟨-, hitems⟩
      simpa only [unplaced, mapPlaces, mapPlacesAll_eq_map, Node.block.injEq, and_true] using hitems
    | _ => exact (aligns_of_mark_ne (by simp [mark])).before _
  | ifThen hcondition hthen iht =>
    cases hb with
    | ifThen hcondition' hthen' =>
      have hthen := (iht hthen' (depth + 2)).last.below (depth + 1) "Then"
      have hcut := hcondition.aligns_entries hcondition' (depth + 2)
      have hall := (hcut.appendBefore hthen).below (depth + 1) "Condition"
      refine hall.entry.mono ?_
      rintro ⟨-, hcondition, hthen⟩
      simp only [unplaced, mapPlaces] at hcondition hthen ⊢
      rw [hcondition, hthen]
    | ifElse hcondition' hthen' helse' =>
      have hthen := iht hthen' (depth + 2)
      exact (aligns_entries_ifThen_ifElse (hcondition.aligns_entries hcondition' _) hthen).mono
        False.elim
    | _ => exact (aligns_of_mark_ne (by simp [mark])).before _
  | ifElse hcondition hthen helse iht ihe =>
    cases hb with
    | ifThen hcondition' hthen' =>
      have hthen := (iht hthen' (depth + 2)).symm
      exact (aligns_entries_ifThen_ifElse (hcondition'.aligns_entries hcondition _) hthen).symm.mono
        False.elim
    | ifElse hcondition' hthen' helse' =>
      have helse := (ihe helse' (depth + 2)).last.below (depth + 1) "Else"
      have hthen := ((iht hthen' (depth + 2)).followed helse).below (depth + 1) "Then"
      have hcut := hcondition.aligns_entries hcondition' (depth + 2)
      have hall := (hcut.appendBefore hthen).below (depth + 1) "Condition"
      refine hall.entry.mono ?_
      rintro ⟨-, hcondition, hthen, helse⟩
      simp only [unplaced, mapPlaces] at hcondition hthen helse ⊢
      rw [hcondition, hthen, helse]
    | _ => exact (aligns_of_mark_ne (by simp [mark])).before _
  | forLoop _ hcondition _ _ ihi ihu ihb =>
    cases hb with
    | forLoop hinit' hcondition' hupdate' hbody' =>
      have hbody := (ihb hbody' (depth + 2)).last.below (depth + 1) "Body"
      have hupdate := ((ihu hupdate' (depth + 2)).followed hbody).below (depth + 1) "Update"
      have hcut := hcondition.aligns_entries hcondition' (depth + 2)
      have hcondition := (hcut.appendBefore hupdate).below (depth + 1) "Condition"
      have hall := ((ihi hinit' (depth + 2)).followed hcondition).below (depth + 1)
        "Initialization"
      refine hall.entry.mono ?_
      rintro ⟨-, hinit, hcondition, hupdate, hbody⟩
      simp only [unplaced, mapPlaces] at hinit hcondition hupdate hbody ⊢
      rw [hinit, hcondition, hupdate, hbody]
    | _ => exact (aligns_of_mark_ne (by simp [mark])).before _
  | whileLoop hcondition _ ihb =>
    cases hb with
    | whileLoop hcondition' hbody' =>
      have hbody := (ihb hbody' (depth + 2)).last.below (depth + 1) "Body"
      have hcut := hcondition.aligns_entries hcondition' (depth + 2)
      have hall := (hcut.appendBefore hbody).below (depth + 1) "Condition"
      refine hall.entry.mono ?_
      rintro ⟨-, hcondition, hbody⟩
      simp only [unplaced, mapPlaces] at hcondition hbody ⊢
      rw [hcondition, hbody]
    | _ => exact (aligns_of_mark_ne (by simp [mark])).before _
  | ret =>
    cases hb with
    | ret => exact ((Aligns.same _).mono fun _ => rfl).before _
    | retValue hvalue' =>
      exact ((aligns_entries_ret_retValue hvalue').mono False.elim).before _
    | _ => exact (aligns_of_mark_ne (by simp [mark])).before _
  | retValue hvalue =>
    cases hb with
    | ret => exact ((aligns_entries_ret_retValue hvalue).symm.mono False.elim).before _
    | retValue hvalue' =>
      refine ((hvalue.aligns_entries hvalue' _).entry.mono ?_).before _
      rintro ⟨-, hvalue⟩
      simp only [unplaced, mapPlaces] at hvalue ⊢
      rw [hvalue]
    | _ => exact (aligns_of_mark_ne (by simp [mark])).before _

/-- **The entries of some statements determine the statements.** -/
theorem map_unplaced_eq_of_entriesAll {ss ts : List Node} {depth : Nat}
    (hss : ∀ s ∈ ss, s.LegibleStatement) (hts : ∀ t ∈ ts, t.LegibleStatement)
    (h : entriesAll (depth + 1) ss = entriesAll (depth + 1) ts) :
    ss.map unplaced = ts.map unplaced :=
  (aligns_entriesAll (fun s hs _ ht => (hss s hs).aligns_entries ht (depth + 1)) hts).of_eq
    shallow_nil h

end Node

end ThreeAddress
