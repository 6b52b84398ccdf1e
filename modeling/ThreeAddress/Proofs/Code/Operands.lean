import ThreeAddress.Proofs.Code.FileText
import ThreeAddress.Proofs.Text.Classes
import ThreeAddress.Proofs.Tree.Places

/-!
# Texts of operands

**Theorem (`operandText_eq_iff`).** Two leaves of a compiled program have the same text in its code
exactly if they are the same variable or the same literal, or one of them is a float that is written
as a word and the other is a variable with that word as its name.

The first character tells strings, numbers and names apart (`stringText_ne_of_plain`,
`IsName.ne_intText`); integers and floats have no text in common, and each of them is determined by
its text. But infinity is written `inf`, and what is no number is written `nan`, and both can be
names (`IsName.eq_floatText_iff`).
-/

namespace ThreeAddress

open Literal

/-! ## Leaves -/

namespace Node

/-- Variables and literals. -/
inductive IsLeaf : Node → Prop
  | var {name : String} {l : Option Location} : IsLeaf (.var name l)
  | int {value : Int} {l : Option Location} : IsLeaf (.int value l)
  | float {value : Float} {l : Option Location} : IsLeaf (.float value l)
  | string {value : String} {l : Option Location} : IsLeaf (.string value l)

/-- The node has no code of its own, and the operand holds its value. -/
def LoweredTo (n : Node) (a : Operand) : Prop :=
  ∀ counters, Lowering.expression n counters = .ok (([], a), counters)

/-- A variable, and a float that is written as the variable is called. -/
def Mistakable : Node → Node → Prop
  | var name _, float x _ => name = "inf" ∧ x = infinity ∨ name = "nan" ∧ x = notANumber
  | _, _ => False

end Node

/-! ## Strings -/

theorem Literal.stringText_injective : Function.Injective stringText := by
  intro s t h
  have hlist := congrArg String.toList h
  simp only [stringText, String.toList_append] at hlist
  exact String.toList_inj.1 (List.append_cancel_left (List.append_cancel_right hlist))

/-- A string is told from all else by its quotes. -/
theorem stringText_ne_of_plain {text value : String} (h : Plain text.toList) :
    text ≠ stringText value := by
  rintro rfl
  refine (h '"' ?_).1 rfl
  rw [stringText, String.toList_append, String.toList_append]
  exact List.mem_append_left _ (List.mem_append_left _ (by decide))

/-! ## Names -/

namespace IsName

variable {name : String} (h : IsName name)

include h

/-- What starts like a number is no name. -/
theorem toList_ne {c : Char} {cs : List Char} (hc : c.isDigit = true ∨ c = '-') :
    name.toList ≠ c :: cs := by
  obtain ⟨d, ds, htext, hd, -⟩ := h
  intro h
  cases htext.symm.trans h
  have hother : Text.isLetter c = false := by
    rcases hc with hc | rfl
    · exact Text.isLetter_of_isDigit hc
    · decide
  rw [hother] at hd
  cases hd

theorem ne_intText (n : ℤ) : name ≠ intText n := by
  obtain ⟨c, cs, htext, hc⟩ := (writtenInt n).head
  exact fun hname => h.toList_ne hc (hname ▸ htext)

/-- **The names that floats are written as.** -/
theorem eq_floatText_iff {x : Float} :
    name = floatText x ↔ name = "inf" ∧ x = infinity ∨ name = "nan" ∧ x = notANumber := by
  constructor
  · rintro rfl
    rcases floatText_cases x with rfl | rfl | ⟨c, cs, htext, hc⟩
    · exact .inl ⟨floatText_infinity, rfl⟩
    · exact .inr ⟨floatText_notANumber, rfl⟩
    · exact absurd htext (h.toList_ne hc)
  · rintro (⟨rfl, rfl⟩ | ⟨rfl, rfl⟩)
    · exact floatText_infinity.symm
    · exact floatText_notANumber.symm

end IsName

/-! ## Leaves of a program -/

/-- **The text of a leaf determines the leaf**, but for the names that floats are written as. -/
theorem leafText_eq_iff {a b : Node} (ha : a.IsLeaf) (hb : b.IsLeaf) (hspelled : a.Spelled)
    (hspelled' : b.Spelled) :
    ∃ x y, a.LoweredTo x ∧ b.LoweredTo y ∧
      (x.text = y.text ↔ a.unplaced = b.unplaced ∨ a.Mistakable b ∨ b.Mistakable a) := by
  cases ha <;> cases hb <;> refine ⟨_, _, fun _ => rfl, fun _ => rfl, ?_⟩ <;>
    simp only [Operand.text, Node.unplaced, Node.mapPlaces, Node.Mistakable, or_false, false_or]
  -- Leaves of one kind.
  case var.var => simp only [Node.var.injEq, and_true]
  case int.int => simp only [Node.int.injEq, and_true, intText_injective.eq_iff]
  case float.float => simp only [Node.float.injEq, and_true, floatText_injective.eq_iff]
  case string.string => simp only [Node.string.injEq, and_true, stringText_injective.eq_iff]
  -- Names and floats.
  case var.float => simpa using hspelled.eq_floatText_iff
  case float.var => simpa using eq_comm.trans hspelled'.eq_floatText_iff
  -- Leaves that are told apart.
  case var.int => simpa using hspelled.ne_intText _
  case int.var => simpa using (hspelled'.ne_intText _).symm
  case var.string => simpa using stringText_ne_of_plain hspelled.plain
  case string.var => simpa using (stringText_ne_of_plain hspelled'.plain).symm
  case int.string => simpa using stringText_ne_of_plain (plain_intText _)
  case string.int => simpa using (stringText_ne_of_plain (plain_intText _)).symm
  case float.string => simpa using stringText_ne_of_plain (plain_floatText _)
  case string.float => simpa using (stringText_ne_of_plain (plain_floatText _)).symm
  case int.float => simpa using intText_ne_floatText _ _
  case float.int => simpa using (intText_ne_floatText _ _).symm

variable {options : Options} {source file : String} {c : Compilation}

/-- The leaves of a compiled program are spelled as in a source text. -/
theorem spelled_of_compile (h : (compile options source file).run.1 = .ok c) {a : Node}
    (ha : a ∈ Node.partsAll c.optimized) : a.Spelled := by
  obtain ⟨s, hs, ha⟩ := Node.mem_partsAll.1 ha
  exact (passes_of_compile h).allSpelled s hs a ha

/-- **When two leaves of a compiled program have the same text.** -/
theorem operandText_eq_iff (h : (compile options source file).run.1 = .ok c) {a b : Node}
    (ha : a ∈ Node.partsAll c.optimized) (hb : b ∈ Node.partsAll c.optimized) (hleaf : a.IsLeaf)
    (hleaf' : b.IsLeaf) :
    ∃ x y, a.LoweredTo x ∧ b.LoweredTo y ∧
      (x.text = y.text ↔ a.unplaced = b.unplaced ∨ a.Mistakable b ∨ b.Mistakable a) :=
  leafText_eq_iff hleaf hleaf' (spelled_of_compile h ha) (spelled_of_compile h hb)

/-- Whether the node is the variable. -/
def Node.isVar (name : String) : Node → Bool
  | var name' _ => name' = name
  | _ => false

/-- Whether the node is a float with the text. -/
def Node.isFloat (text : String) : Node → Bool
  | float x _ => floatText x = text
  | _ => false

theorem Node.eq_of_isVar {name : String} {n : Node} (h : n.isVar name = true) :
    ∃ l, n = .var name l := by
  cases n with
  | var name' l => exact ⟨l, by rw [of_decide_eq_true h]⟩
  | _ => cases h

theorem Node.eq_of_isFloat {x : Float} {n : Node} (h : n.isFloat (floatText x) = true) :
    ∃ l, n = .float x l := by
  cases n with
  | float y l => exact ⟨l, by rw [floatText_injective (of_decide_eq_true h)]⟩
  | _ => cases h

/-- A program with a variable that is called as infinity is written. -/
def infinityAdded : String := "float inf = 2.0; return inf + 1.0 / 0.0;"

theorem infinityAdded_leaves :
    ∃ c l l', (compile {} infinityAdded "a").run.1 = .ok c ∧
      .var "inf" l ∈ Node.partsAll c.optimized ∧
      .float infinity l' ∈ Node.partsAll c.optimized := by
  obtain ⟨c, hc⟩ := exists_of_isOk (r := (compile {} infinityAdded "a").run.1) (by decide +kernel)
  have hleaves : (compile {} infinityAdded "a").run.1.toOption.map (fun c =>
      (Node.partsAll c.optimized).any (Node.isVar "inf") &&
        (Node.partsAll c.optimized).any (Node.isFloat "inf")) = some true := by
    decide +kernel
  rw [hc] at hleaves
  obtain ⟨hvar, hfloat⟩ := Bool.and_eq_true_iff.1 (Option.some.inj hleaves)
  obtain ⟨a, ha, hname⟩ := List.any_eq_true.1 hvar
  obtain ⟨b, hb, htext⟩ := List.any_eq_true.1 hfloat
  rw [← floatText_infinity] at htext
  obtain ⟨l, rfl⟩ := Node.eq_of_isVar hname
  obtain ⟨l', rfl⟩ := Node.eq_of_isFloat htext
  exact ⟨c, l, l', hc, ha, hb⟩

theorem infinityAdded_text :
    ∃ c a b x y, (compile {} infinityAdded "a").run.1 = .ok c ∧
      a ∈ Node.partsAll c.optimized ∧ b ∈ Node.partsAll c.optimized ∧ a.IsLeaf ∧ b.IsLeaf ∧
      a.LoweredTo x ∧ b.LoweredTo y ∧ a.Mistakable b ∧ x.text = y.text := by
  obtain ⟨c, l, l', hc, ha, hb⟩ := infinityAdded_leaves
  obtain ⟨x, y, hx, hy, htext⟩ := operandText_eq_iff hc ha hb .var .float
  have hmistakable : (Node.var "inf" l).Mistakable (.float infinity l') := .inl ⟨rfl, rfl⟩
  exact ⟨c, _, _, x, y, hc, ha, hb, .var, .float, hx, hy, hmistakable,
    htext.2 (.inr (.inl hmistakable))⟩

/-- **A variable may be taken for a literal.** In `infinityAdded` the sum of the variable and the
infinity that the quotient is folded to becomes that of two operands with one text. -/
theorem exists_mistakable_leaves :
    ¬ ∀ (options : Options) (source file : String) (c : Compilation),
      (compile options source file).run.1 = .ok c →
        ∀ a ∈ Node.partsAll c.optimized, ∀ b ∈ Node.partsAll c.optimized, a.IsLeaf → b.IsLeaf →
          ∀ x y, a.LoweredTo x → b.LoweredTo y → x.text = y.text → a.unplaced = b.unplaced := by
  intro h
  obtain ⟨c, l, l', hc, ha, hb⟩ := infinityAdded_leaves
  have hsame := h {} infinityAdded "a" c hc _ ha _ hb .var .float (.var "inf") (.float infinity)
    (fun _ => rfl) (fun _ => rfl) floatText_infinity.symm
  simp only [Node.unplaced, Node.mapPlaces] at hsame
  cases hsame

end ThreeAddress
