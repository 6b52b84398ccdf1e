import ThreeAddress.Proofs.Code.FileText
import ThreeAddress.Proofs.Compilation.Legibility
import ThreeAddress.Proofs.Tree.Outline

/-!
# Outlines of programs

**Theorem** (`sameAll_of_outlineProgram_eq`): the outline of a program that is read from a source
text determines the program up to places.

Strings are written as they are, so what stands between two newlines may be a piece of a string that
looks like an entry. But each entry is a line in the sense of `IsLine`, with quotes in pairs and
newlines in quotes only, and starts with no space (`Entry.Readable`). So the entries are read back
from the text (`readOutline`), and they determine the program.
-/

namespace ThreeAddress

open Node

/-! ## Reading entries -/

/-- A text that can be read back from a line: it is whole, and starts where the indentation ends. -/
def Entry.IsText (text : String) : Prop :=
  Whole text.toList ∧ text.toList.head?.any (· ≠ ' ') = true

instance (text : String) : Decidable (Entry.IsText text) := inferInstanceAs (Decidable (_ ∧ _))

/-- Reads an entry. -/
def readEntry (line : String) : Entry where
  depth := (line.toList.takeWhile (· = ' ')).length / 2
  text := String.ofList (line.toList.dropWhile (· = ' '))

namespace Entry

theorem toList_line (e : Entry) :
    e.line.toList = List.replicate (2 * e.depth) ' ' ++ e.text.toList := by
  rw [line, outlineEntry, String.toList_append, String.toList_ofList]

/-- **An entry is read back from its line.** -/
theorem readEntry_line {e : Entry} (h : IsText e.text) : readEntry e.line = e := by
  have hspaces : ∀ c ∈ List.replicate (2 * e.depth) ' ', decide (c = ' ') = true :=
    fun c hc => decide_eq_true (List.eq_of_mem_replicate hc)
  have hend : ∀ c ∈ e.text.toList.head?, decide (c = ' ') = false := by
    intro c hc
    have hstart := h.2
    rw [Option.mem_def.1 hc] at hstart
    exact decide_eq_false (of_decide_eq_true hstart)
  rw [readEntry, toList_line, Token.takeWhile_append_of_ends hspaces hend,
    Token.dropWhile_append_of_ends hspaces hend, List.length_replicate,
    Nat.mul_div_cancel_left _ Nat.two_pos, String.ofList_toList]

/-- An entry is a line. -/
theorem isLine_line {e : Entry} (h : IsText e.text) : IsLine e.line := by
  have hspaces : Plain (List.replicate (2 * e.depth) ' ') := by
    intro c hc
    rw [List.eq_of_mem_replicate hc]
    decide
  refine ⟨by rw [toList_line]; exact (Whole.of_plain hspaces).append h.1, fun hempty => ?_⟩
  have hlist := congrArg String.toList hempty
  rw [toList_line] at hlist
  have hstart := h.2
  rw [(List.append_eq_nil_iff.1 hlist).2] at hstart
  cases hstart

end Entry

namespace Node

/-! ## Texts of entries -/

theorem isText_caption {n : Node} (h : Whole n.caption.toList) : Entry.IsText n.caption := by
  refine ⟨h, ?_⟩
  rw [head?_caption]
  cases n <;> rfl

theorem isText_label : ∀ label ∈ ["Initialization", "Condition", "Then", "Else", "Update", "Body"],
    Entry.IsText (label ++ ":") := by
  decide

theorem LegibleExpression.isText {e : Node} (h : e.LegibleExpression) :
    Entry.IsText e.caption := by
  refine isText_caption ?_
  cases h with
  | int => exact .append_text (s := "Integer: ") (by decide) (.of_plain (plain_intText _))
  | float => exact .append_text (s := "Float: ") (by decide) (.of_plain (plain_floatText _))
  | string hquote => exact .append_text (s := "String: ") (by decide) (whole_stringText hquote)
  | var hname => exact .append_text (s := "VarNode: ") (by decide) (.of_plain hname.plain)
  | binary hop =>
    exact .append_text (s := "Binary Operation: ") (by decide) (Operator.whole_symbol hop)

theorem LegibleStatement.isText {s : Node} (h : s.LegibleStatement) :
    Entry.IsText s.caption := by
  refine isText_caption ?_
  cases h with
  | @assign name value declares l hdeclares hname hvalue =>
    have hlead : Whole (Ty.lead declares).toList := by
      cases declares with
      | none => decide
      | some type =>
        have hall : ∀ type ∈ [Ty.int, Ty.float, Ty.string], Whole (Ty.lead (some type)).toList := by
          decide
        exact hall type (hdeclares type rfl)
    have hstart : Whole ("AssignNode: " ++ Ty.lead declares).toList :=
      .append_text (by decide) hlead
    exact hstart.append_text (.of_plain hname.plain)
  | ifThen | ifElse => exact (by decide : Whole "If Statement".toList)
  | forLoop => exact (by decide : Whole "For Loop".toList)
  | whileLoop => exact (by decide : Whole "While Loop".toList)
  | ret | retValue => exact (by decide : Whole "Return".toList)
  | block => exact (by decide : Whole "\x7bBlock\x7d".toList)

/-- **The texts of an outline can be read back.** -/
theorem LegibleExpression.isText_entries {e : Node} (h : e.LegibleExpression) (depth : Nat) :
    ∀ entry ∈ e.entries depth, Entry.IsText entry.text := by
  have htext := h.isText
  induction h generalizing depth with
  | int | float | string | var => exact List.forall_mem_singleton.2 htext
  | binary _ hl hr ihl ihr =>
    have hleft := ihl (depth + 1) hl.isText
    have hright := ihr (depth + 1) hr.isText
    exact List.forall_mem_cons.2 ⟨htext, List.forall_mem_append.2 ⟨hleft, hright⟩⟩

theorem isText_labelled {depth : Nat} {label : String} {entries : List Entry}
    (hlabel : label ∈ ["Initialization", "Condition", "Then", "Else", "Update", "Body"])
    (h : ∀ entry ∈ entries, Entry.IsText entry.text) :
    ∀ entry ∈ labelled depth label entries, Entry.IsText entry.text :=
  List.forall_mem_cons.2 ⟨isText_label label hlabel, h⟩

theorem LegibleStatement.isText_entries {s : Node} (h : s.LegibleStatement) (depth : Nat) :
    ∀ entry ∈ s.entries depth, Entry.IsText entry.text := by
  have htext := h.isText
  induction h generalizing depth with
  | assign _ _ hvalue | retValue hvalue =>
    exact List.forall_mem_cons.2 ⟨htext, hvalue.isText_entries _⟩
  | ret =>
    have hempty : Entry.IsText "(empty)" := by decide
    exact List.forall_mem_cons.2 ⟨htext, List.forall_mem_singleton.2 hempty⟩
  | block hss ih =>
    refine List.forall_mem_cons.2 ⟨htext, fun entry hentry => ?_⟩
    obtain ⟨s, hs, hentry⟩ := mem_entriesAll.1 hentry
    exact ih s hs (depth + 1) (hss s hs).isText entry hentry
  | ifThen hc ht iht =>
    refine List.forall_mem_cons.2 ⟨htext, isText_labelled (by decide) ?_⟩
    refine List.forall_mem_append.2 ⟨hc.isText_entries _, isText_labelled (by decide) ?_⟩
    exact iht (depth + 2) ht.isText
  | ifElse hc ht he iht ihe =>
    refine List.forall_mem_cons.2 ⟨htext, isText_labelled (by decide) ?_⟩
    refine List.forall_mem_append.2 ⟨hc.isText_entries _, isText_labelled (by decide) ?_⟩
    refine List.forall_mem_append.2 ⟨iht _ ht.isText, isText_labelled (by decide) ?_⟩
    exact ihe (depth + 2) he.isText
  | forLoop hi hc hu hb ihi ihu ihb =>
    refine List.forall_mem_cons.2 ⟨htext, isText_labelled (by decide) ?_⟩
    refine List.forall_mem_append.2 ⟨ihi _ hi.isText, isText_labelled (by decide) ?_⟩
    refine List.forall_mem_append.2 ⟨hc.isText_entries _, isText_labelled (by decide) ?_⟩
    refine List.forall_mem_append.2 ⟨ihu _ hu.isText, isText_labelled (by decide) ?_⟩
    exact ihb (depth + 2) hb.isText
  | whileLoop hc hb ihb =>
    refine List.forall_mem_cons.2 ⟨htext, isText_labelled (by decide) ?_⟩
    refine List.forall_mem_append.2 ⟨hc.isText_entries _, isText_labelled (by decide) ?_⟩
    exact ihb (depth + 2) hb.isText

end Node

/-! ## Reading an outline -/

/-- The entries of an outline, read back from its text. -/
def readOutline (text : String) : List Entry :=
  (readLines (text ++ "\n")).tail.map readEntry

/-- **The entries of an outline can be read back.** -/
theorem readOutline_outlineProgram {program : List Node} {text : String}
    (h : ∀ s ∈ program, s.LegibleStatement) (htext : outlineProgram program = .ok text) :
    readOutline text = entriesAll 1 program := by
  have hentries : ∀ e ∈ entriesAll 1 program, Entry.IsText e.text := by
    intro e he
    obtain ⟨s, hs, he⟩ := mem_entriesAll.1 he
    exact (h s hs).isText_entries 1 e he
  have hlines : ∀ line ∈ "Program" :: (entriesAll 1 program).map Entry.line, IsLine line := by
    refine List.forall_mem_cons.2 ⟨⟨by decide, by decide⟩, List.forall_mem_map.2 fun e he => ?_⟩
    exact Entry.isLine_line (hentries e he)
  rw [outlineProgram_eq fun s hs => (h s hs).isStatement] at htext
  cases htext
  show (readLines (fileText ("Program" :: (entriesAll 1 program).map Entry.line))).tail.map
    readEntry = _
  have hsame : (entriesAll 1 program).map (readEntry ∘ Entry.line) =
      (entriesAll 1 program).map id :=
    List.map_congr_left fun e he => Entry.readEntry_line (hentries e he)
  rw [readLines_fileText hlines, List.tail_cons, List.map_map, hsame, List.map_id]

/-- **The outline determines the program**, even if its strings look like entries. -/
theorem sameAll_of_outlineProgram_eq {source source' file file' text : String}
    {program program' : List Node} (h : (parseSource source file).run.1 = .ok program)
    (h' : (parseSource source' file').run.1 = .ok program')
    (htext : outlineProgram program = .ok text) (htext' : outlineProgram program' = .ok text) :
    program.map unplaced = program'.map unplaced ∧ sameAll program program' = true := by
  have hreads : Reads source file program := parseSource_eq_ok_iff.1 h
  have hreads' : Reads source' file' program' := parseSource_eq_ok_iff.1 h'
  have hentries : entriesAll 1 program = entriesAll 1 program' := by
    rw [← readOutline_outlineProgram hreads.legible htext,
      readOutline_outlineProgram hreads'.legible htext']
  have hunplaced := map_unplaced_eq_of_entriesAll hreads.legible hreads'.legible hentries
  exact ⟨hunplaced, sameAll_of_unplaced_eq hreads.noNaN hunplaced⟩

/-- A string that looks like a return, before a return. -/
def outlinedReturn : String := "string s = \"a\n  Return\n    (empty)\"; return;"

/-- The same program, laid out in another way. -/
def outlinedReturnAgain : String := "string s=\"a\n  Return\n    (empty)\" ; // end\nreturn ;"

/-- The outline of both: the first `Return` is text of the string, the second is a node. -/
def returnOutline : String :=
  "\n".intercalate ["Program", "  AssignNode: string s", "    String: \"a", "  Return",
    "    (empty)\"", "  Return", "    (empty)"]

theorem outlinedReturn_same :
    ∃ program program', (parseSource outlinedReturn "a").run.1 = .ok program ∧
      (parseSource outlinedReturnAgain "b").run.1 = .ok program' ∧
      outlineProgram program = .ok returnOutline ∧ outlineProgram program' = .ok returnOutline ∧
      program.map unplaced = program'.map unplaced ∧ sameAll program program' = true := by
  have houtline : ∀ {source file : String} {program : List Node},
      (parseSource source file).run.1 = .ok program →
      (parseSource source file).run.1.toOption.bind (outlineProgram · |>.toOption) =
        some returnOutline →
      outlineProgram program = .ok returnOutline := by
    intro source file program h htext
    obtain ⟨text, hok⟩ := outlineProgram_of_regular (Reads.regular (parseSource_eq_ok_iff.1 h))
    rw [h] at htext
    change (outlineProgram program).toOption = some returnOutline at htext
    rw [hok] at htext
    exact hok.trans (congrArg Except.ok (Option.some.inj htext))
  obtain ⟨program, h⟩ :=
    exists_of_isOk (r := (parseSource outlinedReturn "a").run.1) (by decide +kernel)
  obtain ⟨program', h'⟩ :=
    exists_of_isOk (r := (parseSource outlinedReturnAgain "b").run.1) (by decide +kernel)
  have htext := houtline h (by decide +kernel)
  have htext' := houtline h' (by decide +kernel)
  exact ⟨program, program', h, h', htext, htext', sameAll_of_outlineProgram_eq h h' htext htext'⟩

end ThreeAddress
