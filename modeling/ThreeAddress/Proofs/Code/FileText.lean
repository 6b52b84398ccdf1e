import ThreeAddress.Proofs.Compilation.Concatenation
import ThreeAddress.Proofs.Compilation.Spelled
import ThreeAddress.Proofs.Number.Text

/-!
# Files of lines

**Theorem (`lines_eq_of_fileText_eq`).** The text of the file that is written for a program
determines the lines of its code.

A string of a program may have newlines in it, and text that looks like an instruction, and it is
written as it is. So the lines are not what stands between the newlines; but they can be read back
(`readLines_fileText`) since every line is *whole* (`Instruction.Spelled.isLine_text`):

* the quotes in it come in pairs,
* a newline stands only between the quotes of a pair, and
* the line is not empty, so that the file of no lines is not taken for that of an empty one.
-/

namespace ThreeAddress

/-! ## Whole texts -/

/-- Whether the end of a text is inside of quotes; none if there is a newline outside of quotes.
`inside` says where the text starts. -/
def quoting? (inside : Bool) : List Char → Option Bool
  | [] => some inside
  | '"' :: cs => quoting? (!inside) cs
  | c :: cs => if c = '\n' ∧ inside = false then none else quoting? inside cs

/-- Quotes come in pairs, and newlines stand between quotes only. -/
def Whole (cs : List Char) : Prop := quoting? false cs = some false

instance (cs : List Char) : Decidable (Whole cs) := inferInstanceAs (Decidable (_ = _))

/-- There are no quotes and no newlines. -/
def Plain (cs : List Char) : Prop := ∀ c ∈ cs, c ≠ '"' ∧ c ≠ '\n'

theorem quoting?_append (inside : Bool) (cs ds : List Char) :
    quoting? inside (cs ++ ds) = (quoting? inside cs).bind fun after => quoting? after ds := by
  fun_induction quoting? inside cs with
  | case1 => rfl
  | case2 inside cs ih => exact ih
  | case3 inside c cs hquote hstop =>
    rw [List.cons_append, quoting?, if_pos hstop]
    · rfl
    · exact hquote
  | case4 inside c cs hquote hstop ih =>
    rw [List.cons_append, quoting?, if_neg hstop, ih]
    exact hquote

namespace Whole

theorem append {cs ds : List Char} (h : Whole cs) (h' : Whole ds) : Whole (cs ++ ds) := by
  rw [Whole, quoting?_append, h]
  exact h'

theorem append_text {s t : String} (h : Whole s.toList) (h' : Whole t.toList) :
    Whole (s ++ t).toList := by
  rw [String.toList_append]
  exact h.append h'

theorem of_plain {cs : List Char} (h : Plain cs) : Whole cs := by
  induction cs with
  | nil => rfl
  | cons c cs ih =>
    obtain ⟨⟨hquote, hnewline⟩, hcs⟩ := List.forall_mem_cons.1 h
    rw [Whole, quoting?, if_neg fun hstop => hnewline hstop.1]
    · exact ih hcs
    · exact hquote

/-- Between quotes there may be anything but a quote. -/
theorem quoted {cs : List Char} (h : '"' ∉ cs) : Whole ('"' :: cs ++ ['"']) := by
  have hinside : quoting? true cs = some true := by
    induction cs with
    | nil => rfl
    | cons c cs ih =>
      rw [quoting?, if_neg fun hstop => Bool.noConfusion hstop.2]
      · exact ih fun hcs => h (List.mem_cons_of_mem _ hcs)
      · exact fun hc => h (hc ▸ List.mem_cons_self)
  rw [List.cons_append, Whole, quoting?, Bool.not_false, quoting?_append, hinside]
  rfl

end Whole

/-! ## Operands -/

theorem plain_of_isNumberChar {cs : List Char} (h : ∀ c ∈ cs, Literal.isNumberChar c = true) :
    Plain cs := by
  intro c hc
  have hnumber := h c hc
  refine ⟨?_, ?_⟩ <;> rintro rfl <;> exact absurd hnumber (by decide)

theorem plain_intText (n : Int) : Plain (Literal.intText n).toList :=
  plain_of_isNumberChar (Literal.writtenInt n).forall_isNumberChar

theorem plain_floatText (x : Float) : Plain (Literal.floatText x).toList :=
  plain_of_isNumberChar (Literal.writtenFloat x).forall_isNumberChar

theorem plain_toString (n : Nat) : Plain (toString n).toList := by
  rw [Nat.toString_eq_ofList_toDigits, String.toList_ofList]
  exact plain_of_isNumberChar (Literal.WrittenInt.natural n).forall_isNumberChar

theorem IsName.plain {name : String} (h : IsName name) : Plain name.toList := by
  -- Neither of the two characters is a letter or a digit.
  have hquote : Token.continuesName '"' = false := by decide
  have hnewline : Token.continuesName '\n' = false := by decide
  intro d hd
  have hd := h.continuesName d hd
  refine ⟨?_, ?_⟩ <;> rintro rfl
  · exact Bool.noConfusion (hquote.symm.trans hd)
  · exact Bool.noConfusion (hnewline.symm.trans hd)

theorem Operator.whole_symbol {op : Operator} (h : op ∈ known) : Whole op.symbol.toList := by
  revert op
  decide

theorem whole_stringText {value : String} (h : '"' ∉ value.toList) :
    Whole (Literal.stringText value).toList := by
  rw [Literal.stringText, String.toList_append, String.toList_append]
  exact .quoted h

theorem whole_tempName (n : Nat) : Whole (tempName n).toList :=
  .append_text (by decide) (.of_plain (plain_toString n))

theorem whole_labelName (n : Nat) : Whole (labelName n).toList :=
  .append_text (by decide) (.of_plain (plain_toString n))

/-- **An operand is whole.** -/
theorem Operand.Spelled.whole_text {a : Operand} (h : a.Spelled) : Whole a.text.toList := by
  cases a with
  | temp n => exact whole_tempName n
  | var name => exact .of_plain h.plain
  | int n => exact .of_plain (plain_intText n)
  | float x => exact .of_plain (plain_floatText x)
  | string value => exact whole_stringText h

/-! ## Instructions -/

/-- A text that can be a line of code. -/
def IsLine (text : String) : Prop := Whole text.toList ∧ text ≠ ""

theorem Instruction.text_ne_empty (i : Instruction) : i.text ≠ "" := by
  cases i <;> simp [text]

/-- **An instruction is a line.** -/
theorem Instruction.Spelled.isLine_text {i : Instruction} (h : i.Spelled) : IsLine i.text := by
  refine ⟨?_, i.text_ne_empty⟩
  cases i with
  | binary target left op right =>
    obtain ⟨hleft, hop, hright⟩ := h
    have hstart : Whole (tempName target ++ " = ").toList :=
      (whole_tempName target).append_text (by decide)
    have hoperation : Whole (tempName target ++ " = " ++ left.text ++ " " ++ op.symbol).toList :=
      ((hstart.append_text hleft.whole_text).append_text (by decide)).append_text
        (Operator.whole_symbol hop)
    exact (hoperation.append_text (by decide)).append_text hright.whole_text
  | copy name value =>
    obtain ⟨hname, hvalue⟩ := h
    have hstart : Whole (name ++ " = ").toList :=
      (Whole.of_plain hname.plain).append_text (by decide)
    exact hstart.append_text hvalue.whole_text
  | jumpUnless condition number =>
    have hcondition : Whole ("ifFalse " ++ condition.text).toList :=
      .append_text (by decide) (Operand.Spelled.whole_text h)
    exact (hcondition.append_text (by decide)).append_text (whole_labelName number)
  | jump number => exact .append_text (by decide) (whole_labelName number)
  | label number => exact (whole_labelName number).append_text (by decide)
  | ret =>
    show Whole "return".toList
    decide
  | retValue value => exact .append_text (by decide) (Operand.Spelled.whole_text h)

/-! ## Reading a file -/

/-- Cuts a text at the newlines outside of quotes. `line` is what has been read since the last
newline, backwards; what follows the last one is dropped. -/
def cut (inside : Bool) (line : List Char) : List Char → List (List Char)
  | [] => []
  | '"' :: cs => cut (!inside) ('"' :: line) cs
  | c :: cs =>
    if c = '\n' ∧ inside = false then line.reverse :: cut false [] cs else cut inside (c :: line) cs

/-- The lines of a file. -/
def readLines (text : String) : List String :=
  ((cut false [] text.toList).map String.ofList).filter (· ≠ "")

/-- What has no newline outside of quotes becomes part of a line. -/
theorem cut_append {inside after : Bool} {cs : List Char} (h : quoting? inside cs = some after)
    (line ds : List Char) : cut inside line (cs ++ ds) = cut after (cs.reverse ++ line) ds := by
  fun_induction quoting? inside cs generalizing line with
  | case1 =>
    cases h
    rfl
  | case2 inside cs ih =>
    rw [List.cons_append, cut, ih h, List.reverse_cons, List.append_assoc]
    rfl
  | case3 => cases h
  | case4 inside c cs hquote hstop ih =>
    rw [List.cons_append, cut, if_neg hstop, ih h, List.reverse_cons, List.append_assoc]
    · rfl
    · exact hquote

/-- **A whole text up to a newline is one line.** -/
theorem Whole.cut_eq {cs : List Char} (h : Whole cs) (ds : List Char) :
    cut false [] (cs ++ '\n' :: ds) = cs :: cut false [] ds := by
  rw [cut_append h, cut, if_pos ⟨rfl, rfl⟩, List.append_nil, List.reverse_reverse]
  decide

theorem cut_fileText {line : String} {lines : List String} (h : ∀ l ∈ line :: lines, IsLine l) :
    cut false [] (fileText (line :: lines)).toList = (line :: lines).map String.toList := by
  obtain ⟨hline, hlines⟩ := List.forall_mem_cons.1 h
  induction lines generalizing line with
  | nil =>
    rw [fileText, String.intercalate_singleton, String.toList_append]
    exact hline.1.cut_eq []
  | cons line' lines ih =>
    obtain ⟨hline', hlines'⟩ := List.forall_mem_cons.1 hlines
    have hfile : fileText (line :: line' :: lines) =
        line ++ ("\n" ++ fileText (line' :: lines)) := by
      rw [fileText, String.intercalate_cons_cons, String.append_assoc, String.append_assoc]
      rfl
    rw [hfile, String.toList_append, String.toList_append]
    exact (hline.1.cut_eq _).trans (congrArg _ (ih hlines hline' hlines'))

/-- **The lines of a file can be read back.** -/
theorem readLines_fileText {lines : List String} (h : ∀ l ∈ lines, IsLine l) :
    readLines (fileText lines) = lines := by
  cases lines with
  | nil => decide
  | cons line lines =>
    have hsame : String.ofList ∘ String.toList = id := funext fun _ => String.ofList_toList
    rw [readLines, cut_fileText h, List.map_map, hsame, List.map_id, List.filter_eq_self.2]
    exact fun l hl => decide_eq_true (h l hl).2

/-! ## Compilations -/

variable {options options' : Options} {source source' file file' : String} {c c' : Compilation}

/-- The lines of a compilation can be read back from the file that is written for it. -/
theorem readLines_compile (h : (compile options source file).run.1 = .ok c) :
    readLines (fileText c.lines) = c.lines := by
  refine readLines_fileText fun l hl => ?_
  obtain ⟨i, hi, rfl⟩ := List.mem_map.1 hl
  exact ((passes_of_compile h).spelled i hi).isLine_text

/-- **The file determines the lines**, even if strings have newlines in them. -/
theorem lines_eq_of_fileText_eq (h : (compile options source file).run.1 = .ok c)
    (h' : (compile options' source' file').run.1 = .ok c')
    (hfile : fileText c.lines = fileText c'.lines) : c.lines = c'.lines := by
  rw [← readLines_compile h, hfile, readLines_compile h']

/-- A program with a string that looks like two instructions. -/
def brokenString : String := "string s = \"a\nreturn\"; return s;"

theorem brokenString_lines :
    ∃ c c', (compile {} brokenString "a").run.1 = .ok c ∧
      (compile { analyze := false } (brokenString ++ " // end") "b").run.1 = .ok c' ∧
      fileText c.lines = "s = \"a\nreturn\"\nreturn s\n" ∧
      fileText c'.lines = "s = \"a\nreturn\"\nreturn s\n" ∧ c.lines = c'.lines := by
  obtain ⟨c, hc⟩ := exists_of_isOk (r := (compile {} brokenString "a").run.1) (by decide +kernel)
  obtain ⟨c', hc'⟩ := exists_of_isOk
    (r := (compile { analyze := false } (brokenString ++ " // end") "b").run.1) (by decide +kernel)
  have hfile : (compile {} brokenString "a").run.1.toOption.map (fileText ·.lines) =
      some "s = \"a\nreturn\"\nreturn s\n" := by
    decide +kernel
  have hfile' : (compile { analyze := false } (brokenString ++ " // end") "b").run.1.toOption.map
      (fileText ·.lines) = some "s = \"a\nreturn\"\nreturn s\n" := by
    decide +kernel
  rw [hc] at hfile
  rw [hc'] at hfile'
  have hsame : fileText c.lines = fileText c'.lines :=
    (Option.some.inj hfile).trans (Option.some.inj hfile').symm
  exact ⟨c, c', hc, hc', Option.some.inj hfile, Option.some.inj hfile',
    lines_eq_of_fileText_eq hc hc' hsame⟩

end ThreeAddress
