import ThreeAddress.Proofs.Text.Alignment
import ThreeAddress.Proofs.Tree.Legible
import ThreeAddress.Proofs.Tree.Places
import ThreeAddress.Tree.Inline

/-!
# The one-line form is unambiguous

**Theorem** (`LegibleStatement.aligns_inline`): one-line forms of legible statements are equal only
if the statements are equal up to places, and no such form is the start of another.

Strings are written as they are and may imitate all the rest, but they hold no quote. Numbers are
not closed by anything, so expressions are aligned only where the text breaks; each statement ends
with a bracket. What tells two forms apart is their first character (`initial`), save for the
branches with and without an alternative and the two kinds of returns: there the word `None` stands
where a tree would start, and no tree starts with that letter.
-/

namespace ThreeAddress

open Literal

/-! ## Words -/

/-- A name is cut at a space. -/
theorem IsName.unique {name name' : String} {r r' : List Char} (h : IsName name)
    (h' : IsName name') (heq : name.toList ++ ' ' :: r = name'.toList ++ ' ' :: r') :
    name = name' ∧ r = r' := by
  have hstop : ∀ s : List Char, ∀ c ∈ (' ' :: s).head?, Token.continuesName c = false := by
    intro s c hc
    cases hc
    decide
  obtain ⟨hname, hrest⟩ := eq_of_runs h.continuesName h'.continuesName (hstop r) (hstop r') heq
  exact ⟨String.toList_inj.1 hname, (List.cons.inj hrest).2⟩

/-- A name does not start with a character that is no letter. -/
theorem IsName.ne_of_head {name : String} {c : Char} {r r' : List Char} (h : IsName name)
    (hc : Text.isLetter c = false) : name.toList ++ r ≠ c :: r' := by
  obtain ⟨d, ds, htext, hd, -⟩ := h
  rw [htext]
  intro heq
  rw [(List.cons.inj heq).1, hc] at hd
  cases hd

namespace Ty

theorem isName_name : ∀ type ∈ [int, float, string], IsName type.name := by
  simp only [List.forall_mem_cons]
  refine ⟨⟨'i', ['n', 't'], rfl, by decide, List.all_eq_true.1 (by decide)⟩,
    ⟨'f', ['l', 'o', 'a', 't'], rfl, by decide, List.all_eq_true.1 (by decide)⟩,
    ⟨'s', ['t', 'r', 'i', 'n', 'g'], rfl, by decide, List.all_eq_true.1 (by decide)⟩, ?_⟩
  exact fun _ h => absurd h List.not_mem_nil

theorem lead_some : ∀ type ∈ [int, float, string], lead (some type) = type.name ++ " " := by decide

theorem ofName_name : ∀ type ∈ [int, float, string], ofName type.name = type := by decide

end Ty

/-! ## Targets of assignments -/

/-- **A target is cut at its sign**: with or without a type, a name is the last word before it. -/
theorem Aligns.target {u : List Char} {declares declares' : Option Ty} {name name' : String}
    (hdeclares : ∀ type ∈ declares, type ∈ [Ty.int, Ty.float, Ty.string])
    (hdeclares' : ∀ type ∈ declares', type ∈ [Ty.int, Ty.float, Ty.string])
    (hname : IsName name) (hname' : IsName name') :
    Aligns (u ++ (Ty.lead declares).toList ++ name.toList ++ " = ".toList)
      (u ++ (Ty.lead declares').toList ++ name'.toList ++ " = ".toList)
      (declares = declares' ∧ name = name') := by
  have hsign : Text.isLetter '=' = false := by decide
  have hnone : (Ty.lead none).toList = [] := rfl
  have hsome : ∀ {type : Ty}, type ∈ [Ty.int, Ty.float, Ty.string] →
      (Ty.lead (some type)).toList = type.name.toList ++ [' '] := by
    intro type htype
    rw [Ty.lead_some type htype, String.toList_append]
    rfl
  intro r r' heq
  simp only [List.append_assoc] at heq
  replace heq := List.append_cancel_left heq
  -- If only one of the names has a type before it, then behind the first word there is a name in
  -- one of the texts and the sign in the other.
  cases declares with
  | none =>
    cases declares' with
    | none =>
      simp only [hnone, List.nil_append] at heq
      obtain ⟨rfl, hrest⟩ := hname.unique hname' heq
      exact ⟨⟨rfl, rfl⟩, (List.cons.inj (List.cons.inj hrest).2).2⟩
    | some type =>
      have htype := hdeclares' type rfl
      simp only [hnone, hsome htype, List.nil_append, List.append_assoc] at heq
      obtain ⟨-, hrest⟩ := hname.unique (Ty.isName_name type htype) heq
      exact absurd hrest.symm (hname'.ne_of_head hsign)
  | some type =>
    have htype := hdeclares type rfl
    cases declares' with
    | none =>
      simp only [hnone, hsome htype, List.nil_append, List.append_assoc] at heq
      obtain ⟨-, hrest⟩ := (Ty.isName_name type htype).unique hname' heq
      exact absurd hrest (hname.ne_of_head hsign)
    | some type' =>
      have htype' := hdeclares' type' rfl
      simp only [hsome htype, hsome htype', List.append_assoc] at heq
      obtain ⟨hsame, htarget⟩ :=
        (Ty.isName_name type htype).unique (Ty.isName_name type' htype') heq
      obtain ⟨rfl, hrest⟩ := hname.unique hname' htarget
      rw [← Ty.ofName_name type htype, hsame, Ty.ofName_name type' htype']
      exact ⟨⟨rfl, rfl⟩, (List.cons.inj (List.cons.inj hrest).2).2⟩

/-! ## Operators -/

theorem Operator.eq_of_symbol_eq {op op' : Operator} (hop : op ∈ known) (hop' : op' ∈ known)
    (h : op.symbol = op'.symbol) : op = op' := by
  rw [← ofSymbol_symbol op hop, h, ofSymbol_symbol op' hop']

/-- An operator is cut at the space behind it. -/
theorem Aligns.operator {u v : List Char} {P : Prop} {op op' : Operator} (h : Aligns u v P)
    (hop : op ∈ Operator.known) (hop' : op' ∈ Operator.known) :
    Aligns (u ++ op.symbol.toList ++ " ".toList) (v ++ op'.symbol.toList ++ " ".toList)
      (P ∧ op = op') := by
  have hall : ∀ op ∈ Operator.known, op.symbol.toList.all (fun c => decide (c ≠ ' ')) = true := by
    decide
  have hspace := List.all_eq_true.1 (hall op hop)
  have hspace' := List.all_eq_true.1 (hall op' hop')
  refine (h.upTo hspace hspace' (by decide)).mono ?_
  rintro ⟨hP, hsame⟩
  exact ⟨hP, Operator.eq_of_symbol_eq hop hop' (String.toList_inj.1 hsame)⟩

namespace Node

/-! ## The form of each node

These hold by definition. Rewriting with `inline` itself would be slow, since for its equations Lean
looks into the text of an integer that is not known. -/

variable {l l' : Option Location}

theorem inline_assign {name : String} {value : Node} {declares : Option Ty} :
    (assign name value declares l).inline =
      "AssignNode(" ++ Ty.lead declares ++ name ++ " = " ++ value.inline ++ ")" := rfl

theorem inline_binary {left right : Node} {op : Operator} :
    (binary left op right l).inline =
      "BinOpNode(" ++ left.inline ++ " " ++ op.symbol ++ " " ++ right.inline ++ ")" := rfl

theorem inline_int {value : Int} : (int value l).inline = intText value := rfl

theorem inline_float {value : Float} : (float value l).inline = floatText value := rfl

theorem inline_string {value : String} : (string value l).inline = "\"" ++ value ++ "\"" := rfl

theorem inline_var {name : String} : (var name l).inline = "VarNode(" ++ name ++ ")" := rfl

theorem inline_ifThen {condition thenBranch : Node} :
    (ifThen condition thenBranch l).inline =
      "IfNode(cond=" ++ condition.inline ++ ", then=" ++ thenBranch.inline ++ ", else=None)" := rfl

theorem inline_ifElse {condition thenBranch elseBranch : Node} :
    (ifElse condition thenBranch elseBranch l).inline =
      "IfNode(cond=" ++ condition.inline ++ ", then=" ++ thenBranch.inline ++
        ", else=" ++ elseBranch.inline ++ ")" := rfl

theorem inline_forLoop {init condition update body : Node} :
    (forLoop init condition update body l).inline =
      "ForNode(init=" ++ init.inline ++ ", cond=" ++ condition.inline ++
        ", update=" ++ update.inline ++ ", body=" ++ body.inline ++ ")" := rfl

theorem inline_whileLoop {condition body : Node} :
    (whileLoop condition body l).inline =
      "WhileNode(cond=" ++ condition.inline ++ ", body=" ++ body.inline ++ ")" := rfl

theorem inline_ret : (ret l).inline = "ReturnNode(value=None)" := rfl

theorem inline_retValue {value : Node} :
    (retValue value l).inline = "ReturnNode(value=" ++ value.inline ++ ")" := rfl

theorem inline_block {statements : List Node} :
    (block statements l).inline =
      "BlockNode([" ++ ", ".intercalate (inlineAll statements) ++ "])" := rfl

theorem inline_bare : (bare l).inline = "ASTNode()" := rfl

/-- What stands behind the first of some forms, for the others. -/
def inlineMore (statements : List Node) : List Char :=
  statements.flatMap fun s => ", ".toList ++ s.inline.toList

theorem inlineAll_eq_map (statements : List Node) :
    inlineAll statements = statements.map Node.inline := by
  induction statements with
  | nil => rfl
  | cons s ss ih => rw [List.map_cons, ← ih]; rfl

theorem toList_inlineAll_cons (s : Node) (ss : List Node) :
    (", ".intercalate (inlineAll (s :: ss))).toList = s.inline.toList ++ inlineMore ss := by
  rw [inlineAll_eq_map, List.map_cons]
  induction ss generalizing s with
  | nil =>
    rw [List.map_nil, String.intercalate_singleton, inlineMore, List.flatMap_nil, List.append_nil]
  | cons t ss ih =>
    rw [List.map_cons, String.intercalate_cons_cons, String.toList_append, String.toList_append, ih,
      inlineMore, inlineMore, List.flatMap_cons, List.append_assoc, List.append_assoc]

/-! ## First characters -/

/-- The first character of the one-line form, if it is none of numbers. -/
def initial : Node → Option Char
  | int .. | float .. => none
  | string .. => some '"'
  | var .. => some 'V'
  | binary .. | block .. => some 'B'
  | assign .. | bare .. => some 'A'
  | ifThen .. | ifElse .. => some 'I'
  | forLoop .. => some 'F'
  | whileLoop .. => some 'W'
  | ret .. | retValue .. => some 'R'

theorem head?_inline (n : Node) :
    ∃ c, n.inline.toList.head? = some c ∧ n.initial = if isNumberChar c then none else some c := by
  have hnumber : ∀ {text : List Char}, (∀ c ∈ text, isNumberChar c = true) → text ≠ [] →
      ∃ c, text.head? = some c ∧ none = if isNumberChar c then none else some c := by
    intro text htext hne
    obtain ⟨c, cs, rfl⟩ := List.exists_cons_of_ne_nil hne
    exact ⟨c, rfl, by rw [if_pos (htext c List.mem_cons_self)]⟩
  cases n with
  | int value l =>
    obtain ⟨c, cs, htext, -⟩ := (writtenInt value).head
    rw [inline_int]
    exact hnumber (writtenInt value).forall_isNumberChar (by simp [htext])
  | float value l =>
    obtain ⟨c, hc, -⟩ := (writtenFloat value).exists_mark
    exact hnumber (writtenFloat value).forall_isNumberChar (List.ne_nil_of_mem hc)
  -- All other forms start with a fixed text.
  | _ =>
    simp only [inline_assign, inline_binary, inline_string, inline_var, inline_ifThen,
      inline_ifElse, inline_forLoop, inline_whileLoop, inline_ret, inline_retValue, inline_block,
      inline_bare, String.toList_append, List.append_assoc]
    exact ⟨_, rfl, rfl⟩

/-- Forms with different first characters are never equal. -/
theorem aligns_of_initial_ne {a b : Node} {P : Prop} (h : a.initial ≠ b.initial) :
    Aligns a.inline.toList b.inline.toList P := by
  obtain ⟨c, hc, ha⟩ := head?_inline a
  obtain ⟨d, hd, hb⟩ := head?_inline b
  refine .of_head_ne hc hd ?_
  rintro rfl
  exact h (ha.trans hb.symm)

/-- No form starts with a character that no first character is. -/
theorem aligns_of_ne_initial {a : Node} {u : List Char} {c : Char} {P : Prop}
    (hu : u.head? = some c) (hc : isNumberChar c = false) (h : a.initial ≠ some c) :
    Aligns u a.inline.toList P := by
  obtain ⟨d, hd, ha⟩ := head?_inline a
  refine .of_head_ne hu hd ?_
  rintro rfl
  rw [hc] at ha
  exact h ha

/-! ## Expressions -/

/-- **The one-line form of an expression determines the expression**, where the text breaks. -/
theorem LegibleExpression.aligns_inline {a b : Node} (ha : a.LegibleExpression)
    (hb : b.LegibleExpression) :
    AlignsBefore Breaks a.inline.toList b.inline.toList (a.unplaced = b.unplaced) := by
  induction ha generalizing b with
  | @int m l =>
    have hm := (writtenInt m).forall_isNumberChar
    cases hb with
    | @int n l' =>
      rw [inline_int, inline_int]
      refine (AlignsBefore.number hm (writtenInt n).forall_isNumberChar).mono fun heq => ?_
      simp only [unplaced, mapPlaces, intText_injective (String.toList_inj.1 heq)]
    | @float y l' =>
      rw [inline_int, inline_float]
      refine (AlignsBefore.number hm (writtenFloat y).forall_isNumberChar).mono fun heq => ?_
      exact absurd (String.toList_inj.1 heq) (intText_ne_floatText m y)
    | _ => exact (aligns_of_initial_ne (by simp [initial])).before _
  | @float x l =>
    have hx := (writtenFloat x).forall_isNumberChar
    cases hb with
    | @int n l' =>
      rw [inline_float, inline_int]
      refine (AlignsBefore.number hx (writtenInt n).forall_isNumberChar).mono fun heq => ?_
      exact absurd (String.toList_inj.1 heq.symm) (intText_ne_floatText n x)
    | @float y l' =>
      rw [inline_float, inline_float]
      refine (AlignsBefore.number hx (writtenFloat y).forall_isNumberChar).mono fun heq => ?_
      simp only [unplaced, mapPlaces, floatText_injective (String.toList_inj.1 heq)]
    | _ => exact (aligns_of_initial_ne (by simp [initial])).before _
  | @string s l hs =>
    cases hb with
    | @string t l' ht =>
      have hquote : ∀ {text : String}, '"' ∉ text.toList →
          ∀ c ∈ text.toList, decide (c ≠ '"') = true :=
        fun htext c hc => decide_eq_true fun h => htext (h ▸ hc)
      simp only [inline_string, String.toList_append]
      have hvalue := (Aligns.same "\"".toList).upTo (hquote hs) (hquote ht) (c := '"') (by decide)
      refine (hvalue.mono ?_).before _
      rintro ⟨-, heq⟩
      simp only [unplaced, mapPlaces, String.toList_inj.1 heq]
    | _ => exact (aligns_of_initial_ne (by simp [initial])).before _
  | @var x l hx =>
    cases hb with
    | @var y l' hy =>
      simp only [inline_var, String.toList_append]
      have hname := (Aligns.same "VarNode(".toList).upTo hx.continuesName hy.continuesName
        (c := ')') (by decide)
      refine (hname.mono ?_).before _
      rintro ⟨-, heq⟩
      simp only [unplaced, mapPlaces, String.toList_inj.1 heq]
    | _ => exact (aligns_of_initial_ne (by simp [initial])).before _
  | @binary left right op l hop _ _ ihl ihr =>
    cases hb with
    | @binary left' right' op' l' hop' hl' hr' =>
      simp only [inline_binary, String.toList_append]
      have hcut := ((Aligns.same "BinOpNode(".toList).appendBefore (ihl hl')).literal
        " ".toList (breaks_append rfl)
      have hboth := ((hcut.operator hop hop').appendBefore (ihr hr')).literal ")".toList
        (breaks_append rfl)
      refine (hboth.mono ?_).before _
      rintro ⟨⟨⟨-, hleft⟩, rfl⟩, hright⟩
      simp only [unplaced, mapPlaces] at hleft hright ⊢
      rw [hleft, hright]
    | _ => exact (aligns_of_initial_ne (by simp [initial])).before _

theorem LegibleExpression.unplaced_eq {a b : Node} (ha : a.LegibleExpression)
    (hb : b.LegibleExpression) (h : a.inline = b.inline) : a.unplaced = b.unplaced :=
  (ha.aligns_inline hb).of_eq breaks_nil (congrArg String.toList h)

/-! ## Statements -/

theorem LegibleExpression.initial_ne {e : Node} (he : e.LegibleExpression) :
    e.initial ≠ some 'N' := by
  cases he <;> simp [initial]

theorem LegibleStatement.initial_ne {s : Node} (hs : s.LegibleStatement) :
    s.initial ≠ some 'N' ∧ s.initial ≠ some ']' := by
  cases hs <;> simp [initial]

/-- A branch without an alternative has the word `None` where one with an alternative has a tree. -/
theorem aligns_ifThen_ifElse {condition condition' thenBranch thenBranch' elseBranch : Node}
    {P Q : Prop}
    (hcondition : AlignsBefore Breaks condition.inline.toList condition'.inline.toList P)
    (hthen : Aligns thenBranch.inline.toList thenBranch'.inline.toList Q)
    (helse : elseBranch.initial ≠ some 'N') :
    Aligns (ifThen condition thenBranch l).inline.toList
      (ifElse condition' thenBranch' elseBranch l').inline.toList False := by
  have hnone : ", else=None)".toList = ", else=".toList ++ "None)".toList := rfl
  simp only [inline_ifThen, inline_ifElse, String.toList_append, hnone, ← List.append_assoc]
  have hcut := ((Aligns.same "IfNode(cond=".toList).appendBefore hcondition).literal
    ", then=".toList (breaks_append rfl)
  have hnever : Aligns "None)".toList elseBranch.inline.toList False :=
    aligns_of_ne_initial rfl rfl helse
  exact (((hcut.append hthen).literal _).append hnever |>.mono And.right).never_append _

theorem aligns_ret_retValue {value : Node} (hvalue : value.initial ≠ some 'N') :
    Aligns (ret l).inline.toList (retValue value l').inline.toList False := by
  have hnone : "ReturnNode(value=None)".toList = "ReturnNode(value=".toList ++ "None)".toList := rfl
  simp only [inline_ret, inline_retValue, String.toList_append, hnone]
  have hnever : Aligns "None)".toList value.inline.toList False :=
    aligns_of_ne_initial rfl rfl hvalue
  exact ((Aligns.same _).append hnever |>.mono And.right).never_append _

/-- The forms of statements in a block are cut at the commas between them and at its bracket. -/
theorem aligns_inlineMore {ss ts : List Node}
    (hss : ∀ s ∈ ss, ∀ {t : Node}, t.LegibleStatement →
      Aligns s.inline.toList t.inline.toList (s.unplaced = t.unplaced))
    (hts : ∀ t ∈ ts, t.LegibleStatement) :
    Aligns (inlineMore ss ++ "])".toList) (inlineMore ts ++ "])".toList)
      (ss.map unplaced = ts.map unplaced) := by
  have hcons : ∀ (s : Node) (ss : List Node), inlineMore (s :: ss) ++ "])".toList =
      ", ".toList ++ s.inline.toList ++ (inlineMore ss ++ "])".toList) := by
    intro s ss
    simp only [inlineMore, List.flatMap_cons, List.append_assoc]
  induction ss generalizing ts with
  | nil =>
    cases ts with
    | nil => exact (Aligns.same _).mono fun _ => rfl
    | cons t ts => rw [hcons]; exact .of_head_ne rfl rfl (by decide)
  | cons s ss ih =>
    obtain ⟨hs, hss⟩ := List.forall_mem_cons.1 hss
    cases ts with
    | nil => rw [hcons]; exact .of_head_ne rfl rfl (by decide)
    | cons t ts =>
      obtain ⟨ht, hts⟩ := List.forall_mem_cons.1 hts
      rw [hcons, hcons]
      refine (((Aligns.same _).append (hs ht)).append (ih hss hts)).mono ?_
      rintro ⟨⟨-, hfirst⟩, hmore⟩
      rw [List.map_cons, List.map_cons, hfirst, hmore]

theorem aligns_inlineAll {ss ts : List Node}
    (hss : ∀ s ∈ ss, s.LegibleStatement ∧ ∀ {t : Node}, t.LegibleStatement →
      Aligns s.inline.toList t.inline.toList (s.unplaced = t.unplaced))
    (hts : ∀ t ∈ ts, t.LegibleStatement) :
    Aligns ((", ".intercalate (inlineAll ss)).toList ++ "])".toList)
      ((", ".intercalate (inlineAll ts)).toList ++ "])".toList)
      (ss.map unplaced = ts.map unplaced) := by
  have hempty : (", ".intercalate (inlineAll [])).toList ++ "])".toList = "])".toList := rfl
  have hnever : ∀ {t : Node} {text : List Char}, t.LegibleStatement →
      Aligns "])".toList (t.inline.toList ++ text) False :=
    fun ht => (aligns_of_ne_initial rfl rfl ht.initial_ne.2).never_append _
  cases ss with
  | nil =>
    cases ts with
    | nil => exact (Aligns.same _).mono fun _ => rfl
    | cons t ts =>
      rw [hempty, toList_inlineAll_cons, List.append_assoc]
      exact (hnever (hts t List.mem_cons_self)).mono False.elim
  | cons s ss =>
    obtain ⟨⟨hlegible, hs⟩, hss⟩ := List.forall_mem_cons.1 hss
    cases ts with
    | nil =>
      rw [hempty, toList_inlineAll_cons, List.append_assoc]
      exact (hnever hlegible).symm.mono False.elim
    | cons t ts =>
      obtain ⟨ht, hts⟩ := List.forall_mem_cons.1 hts
      rw [toList_inlineAll_cons, toList_inlineAll_cons, List.append_assoc, List.append_assoc]
      refine ((hs ht).append (aligns_inlineMore (fun s hs => (hss s hs).2) hts)).mono ?_
      rintro ⟨hfirst, hmore⟩
      rw [List.map_cons, List.map_cons, hfirst, hmore]

/-- **The one-line form of a statement determines the statement.** -/
theorem LegibleStatement.aligns_inline {a b : Node} (ha : a.LegibleStatement)
    (hb : b.LegibleStatement) :
    Aligns a.inline.toList b.inline.toList (a.unplaced = b.unplaced) := by
  induction ha generalizing b with
  | assign hdeclares hname hvalue =>
    cases hb with
    | assign hdeclares' hname' hvalue' =>
      simp only [inline_assign, String.toList_append]
      have htarget := Aligns.target (u := "AssignNode(".toList) hdeclares hdeclares' hname hname'
      have hcut := (htarget.appendBefore (hvalue.aligns_inline hvalue')).literal ")".toList
        (breaks_append rfl)
      refine hcut.mono ?_
      rintro ⟨⟨rfl, rfl⟩, hvalue⟩
      simp only [unplaced, mapPlaces] at hvalue ⊢
      rw [hvalue]
    | _ => exact aligns_of_initial_ne (by simp [initial])
  | block hss ih =>
    cases hb with
    | block hts =>
      simp only [inline_block, String.toList_append, List.append_assoc]
      have hitems := aligns_inlineAll (fun s hs => ⟨hss s hs, fun ht => ih s hs ht⟩) hts
      refine ((Aligns.same _).append hitems).mono ?_
      rintro ⟨-, hitems⟩
      simpa only [unplaced, mapPlaces, mapPlacesAll_eq_map, Node.block.injEq, and_true] using hitems
    | _ => exact aligns_of_initial_ne (by simp [initial])
  | ifThen hcondition hthen iht =>
    cases hb with
    | ifThen hcondition' hthen' =>
      simp only [inline_ifThen, String.toList_append]
      have hcut := ((Aligns.same "IfNode(cond=".toList).appendBefore
        (hcondition.aligns_inline hcondition')).literal ", then=".toList (breaks_append rfl)
      refine ((hcut.append (iht hthen')).literal _).mono ?_
      rintro ⟨⟨-, hcondition⟩, hthen⟩
      simp only [unplaced, mapPlaces] at hcondition hthen ⊢
      rw [hcondition, hthen]
    | ifElse hcondition' hthen' helse' =>
      exact (aligns_ifThen_ifElse (hcondition.aligns_inline hcondition') (iht hthen')
        helse'.initial_ne.1).mono False.elim
    | _ => exact aligns_of_initial_ne (by simp [initial])
  | ifElse hcondition hthen helse iht ihe =>
    cases hb with
    | ifThen hcondition' hthen' =>
      exact (aligns_ifThen_ifElse (hcondition'.aligns_inline hcondition) (iht hthen').symm
        helse.initial_ne.1).symm.mono False.elim
    | ifElse hcondition' hthen' helse' =>
      simp only [inline_ifElse, String.toList_append]
      have hcut := ((Aligns.same "IfNode(cond=".toList).appendBefore
        (hcondition.aligns_inline hcondition')).literal ", then=".toList (breaks_append rfl)
      refine ((((hcut.append (iht hthen')).literal _).append (ihe helse')).literal _).mono ?_
      rintro ⟨⟨⟨-, hcondition⟩, hthen⟩, helse⟩
      simp only [unplaced, mapPlaces] at hcondition hthen helse ⊢
      rw [hcondition, hthen, helse]
    | _ => exact aligns_of_initial_ne (by simp [initial])
  | forLoop _ hcondition _ _ ihi ihu ihb =>
    cases hb with
    | forLoop hinit' hcondition' hupdate' hbody' =>
      simp only [inline_forLoop, String.toList_append]
      have hinit := ((Aligns.same "ForNode(init=".toList).append (ihi hinit')).literal
        ", cond=".toList
      have hcut := (hinit.appendBefore (hcondition.aligns_inline hcondition')).literal
        ", update=".toList (breaks_append rfl)
      refine ((((hcut.append (ihu hupdate')).literal _).append (ihb hbody')).literal _).mono ?_
      rintro ⟨⟨⟨⟨-, hinit⟩, hcondition⟩, hupdate⟩, hbody⟩
      simp only [unplaced, mapPlaces] at hinit hcondition hupdate hbody ⊢
      rw [hinit, hcondition, hupdate, hbody]
    | _ => exact aligns_of_initial_ne (by simp [initial])
  | whileLoop hcondition _ ihb =>
    cases hb with
    | whileLoop hcondition' hbody' =>
      simp only [inline_whileLoop, String.toList_append]
      have hcut := ((Aligns.same "WhileNode(cond=".toList).appendBefore
        (hcondition.aligns_inline hcondition')).literal ", body=".toList (breaks_append rfl)
      refine ((hcut.append (ihb hbody')).literal _).mono ?_
      rintro ⟨⟨-, hcondition⟩, hbody⟩
      simp only [unplaced, mapPlaces] at hcondition hbody ⊢
      rw [hcondition, hbody]
    | _ => exact aligns_of_initial_ne (by simp [initial])
  | ret =>
    cases hb with
    | ret => exact (Aligns.same _).mono fun _ => rfl
    | retValue hvalue' => exact (aligns_ret_retValue hvalue'.initial_ne).mono False.elim
    | _ => exact aligns_of_initial_ne (by simp [initial])
  | retValue hvalue =>
    cases hb with
    | ret => exact (aligns_ret_retValue hvalue.initial_ne).symm.mono False.elim
    | retValue hvalue' =>
      simp only [inline_retValue, String.toList_append]
      have hcut := ((Aligns.same "ReturnNode(value=".toList).appendBefore
        (hvalue.aligns_inline hvalue')).literal ")".toList (breaks_append rfl)
      refine hcut.mono ?_
      rintro ⟨-, hvalue⟩
      simp only [unplaced, mapPlaces] at hvalue ⊢
      rw [hvalue]
    | _ => exact aligns_of_initial_ne (by simp [initial])

end Node

end ThreeAddress
