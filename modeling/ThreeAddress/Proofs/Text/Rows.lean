import Mathlib.Data.List.TakeWhile
import Mathlib.Tactic.SplitIfs
import ThreeAddress.Text.Line

/-!
# Two ways to cut a text into lines

Positions count rows, which a newline ends. A diagnostic quotes a line of the text cut at every
character that ends a line in some convention, and a carriage return in front of a newline belongs
to the end of the line.

* `rows`: the text cut at newlines.
* `withoutReturn`: a row as it is quoted, without the carriage return at its end.
* `Unbroken`: no other character of the row ends a line.

**Theorem (`lines_getElem?`).** Up to a row that is unbroken and stands behind unbroken rows, the
lines of the text are its rows without their carriage returns.
-/

namespace ThreeAddress.Text

/-! ## Rows -/

/-- The text cut at newlines. -/
def rows (text : List Char) : List (List Char) := text.splitOn '\n'

theorem length_rows (text : List Char) : (rows text).length = text.count '\n' + 1 := by
  induction text with
  | nil => rfl
  | cons c text ih =>
    rw [rows, List.splitOn_cons_eq_if_modifyHead]
    by_cases hc : c = '\n'
    · rw [if_pos (beq_iff_eq.2 hc), List.length_cons, ← rows, ih, hc, List.count_cons_self]
    · rw [if_neg (mt beq_iff_eq.1 hc), List.length_modifyHead, ← rows, ih,
        List.count_cons_of_ne hc]

theorem rows_cons {row : List Char} (h : '\n' ∉ row) (more : List Char) :
    rows (row ++ '\n' :: more) = row :: rows more :=
  List.splitOn_append_cons_self_of_not_mem h more

theorem rows_last {row : List Char} (h : '\n' ∉ row) : rows row = [row] :=
  List.splitOn_eq_singleton h

/-- The row that goes on where a text is cut. -/
theorem rows_zero {part : List Char} (h : '\n' ∉ part) (rest : List Char) :
    (rows (part ++ rest))[0]? = some (part ++ rest.takeWhile (· ≠ '\n')) := by
  by_cases hrest : '\n' ∈ rest
  · obtain ⟨front, more, rfl, hfront⟩ := List.eq_append_cons_of_mem hrest
    have hpart : '\n' ∉ part ++ front := List.not_mem_append h hfront
    have hne : ∀ c ∈ front, decide (c ≠ '\n') = true := by
      rintro c hc
      exact decide_eq_true fun heq => hfront (heq ▸ hc)
    have htake : (front ++ '\n' :: more).takeWhile (· ≠ '\n') = front := by
      rw [List.takeWhile_append_of_pos hne]
      simp
    rw [← List.append_assoc, rows_cons hpart, htake]
    rfl
  · have hpart : '\n' ∉ part ++ rest := List.not_mem_append h hrest
    have htake : rest.takeWhile (· ≠ '\n') = rest :=
      List.takeWhile_eq_self_iff.2 fun c hc => decide_eq_true fun heq => hrest (heq ▸ hc)
    rw [rows_last hpart, htake]
    rfl

/-- Behind rows that are ended, the rows are counted on. -/
theorem rows_append {done : List Char} (h : done = [] ∨ ∃ front, done = front ++ ['\n'])
    (text : List Char) (i : Nat) :
    (rows (done ++ text))[done.count '\n' + i]? = (rows text)[i]? := by
  obtain rfl | ⟨front, rfl⟩ := h
  · rw [List.nil_append, List.count_nil, Nat.zero_add]
  · have hrows : rows (front ++ ['\n'] ++ text) = rows front ++ rows text := by
      rw [List.append_assoc]
      exact List.splitOn_append_cons_self front text
    have hcount : (front ++ ['\n']).count '\n' = (rows front).length := by
      rw [length_rows, List.count_append]
      rfl
    rw [hrows, hcount, List.getElem?_append_right (Nat.le_add_right _ _), Nat.add_sub_cancel_left]

/-! ## Quoted rows -/

/-- A row without the carriage return at its end. -/
def withoutReturn (row : List Char) : List Char :=
  if row.getLast? = some '\r' then row.dropLast else row

/-- No character ends a line within the row. -/
def Unbroken (row : List Char) : Prop := ∀ c ∈ withoutReturn row, isLineEnd c = false

-- Named, since another instance runs through all characters there are.
instance (row : List Char) : Decidable (Unbroken row) :=
  List.decidableBAll (fun c => isLineEnd c = false) (withoutReturn row)

theorem withoutReturn_cases (row : List Char) :
    row = withoutReturn row ∨ row = withoutReturn row ++ ['\r'] := by
  unfold withoutReturn
  split_ifs with h
  · obtain ⟨front, rfl⟩ := List.getLast?_eq_some_iff.1 h
    rw [List.dropLast_concat]
    exact .inr rfl
  · exact .inl rfl

/-- Only a carriage return does not stand in the quoted row where it stands in the row. -/
theorem withoutReturn_getElem? {row : List Char} {i : Nat} (h : row[i]? ≠ some '\r') :
    (withoutReturn row)[i]? = row[i]? := by
  rcases withoutReturn_cases row with hrow | hrow
  · rw [← hrow]
  · generalize withoutReturn row = quoted at hrow ⊢
    subst hrow
    by_cases hi : i < quoted.length
    · rw [List.getElem?_append_left hi]
    · have hne : i - quoted.length ≠ 0 := by
        intro hzero
        rw [List.getElem?_append_right (Nat.le_of_not_lt hi), hzero] at h
        exact h rfl
      rw [List.getElem?_eq_none (Nat.le_of_not_lt hi), List.getElem?_eq_none]
      rw [List.length_append, List.length_singleton]
      omega

/-! ## Lines -/

theorem linesFrom_cons {c : Char} (hc : c ≠ '\r') (line rest : List Char) :
    linesFrom line (c :: rest) =
      if isLineEnd c then String.ofList line.reverse :: linesFrom [] rest
      else linesFrom (c :: line) rest := by
  rw [linesFrom.eq_def]
  split
  · next h => cases h
  · next h =>
    cases h
    exact absurd rfl hc
  · next h =>
    cases h
    rfl

theorem linesFrom_nil (line : List Char) :
    linesFrom line [] = if line.isEmpty then [] else [String.ofList line.reverse] := rfl

theorem linesFrom_newline (line rest : List Char) :
    linesFrom line ('\n' :: rest) = String.ofList line.reverse :: linesFrom [] rest := by
  rw [linesFrom_cons (by decide), if_pos (by decide)]

theorem linesFrom_return_newline (line rest : List Char) :
    linesFrom line ('\r' :: '\n' :: rest) = String.ofList line.reverse :: linesFrom [] rest := rfl

theorem linesFrom_return (line : List Char) :
    linesFrom line ['\r'] = [String.ofList line.reverse] := rfl

theorem linesFrom_append {body : List Char} (h : ∀ c ∈ body, isLineEnd c = false)
    (line rest : List Char) :
    linesFrom line (body ++ rest) = linesFrom (body.reverse ++ line) rest := by
  induction body generalizing line with
  | nil => rfl
  | cons c body ih =>
    obtain ⟨hc, hbody⟩ := List.forall_mem_cons.1 h
    have hne : c ≠ '\r' := by
      rintro rfl
      cases hc
    rw [List.cons_append, linesFrom_cons hne, hc, if_neg Bool.false_ne_true, ih hbody,
      List.reverse_cons, List.append_assoc]
    rfl

/-- A row that is ended is quoted. -/
theorem linesFrom_row {row : List Char} (h : Unbroken row) (more : List Char) :
    linesFrom [] (row ++ '\n' :: more) =
      String.ofList (withoutReturn row) :: linesFrom [] more := by
  unfold Unbroken at h
  rcases withoutReturn_cases row with hrow | hrow
  · rw [← hrow] at h ⊢
    rw [linesFrom_append h, linesFrom_newline, List.append_nil, List.reverse_reverse]
  · generalize withoutReturn row = body at h hrow
    subst hrow
    rw [List.append_assoc, linesFrom_append h, List.append_nil]
    show linesFrom body.reverse ('\r' :: '\n' :: more) = _
    rw [linesFrom_return_newline, List.reverse_reverse]

/-- The last row is quoted unless it is empty. -/
theorem linesFrom_last {row : List Char} (h : Unbroken row) (hrow : row ≠ []) :
    linesFrom [] row = [String.ofList (withoutReturn row)] := by
  unfold Unbroken at h
  rcases withoutReturn_cases row with heq | heq
  · rw [← heq] at h ⊢
    have hlines := linesFrom_append h [] []
    rw [List.append_nil, List.append_nil] at hlines
    have hempty : ¬ row.reverse.isEmpty = true := by simpa using hrow
    rw [hlines, linesFrom_nil, if_neg hempty, List.reverse_reverse]
  · generalize withoutReturn row = body at h heq
    subst heq
    rw [linesFrom_append h, List.append_nil, linesFrom_return, List.reverse_reverse]

theorem linesFrom_last_getElem? {row : List Char} {i : Nat} {line : String} (h : Unbroken row)
    (hline : (linesFrom [] row)[i]? = some line) : i = 0 ∧ line.toList = withoutReturn row := by
  cases row with
  | nil => cases hline
  | cons c row =>
    rw [linesFrom_last h (List.cons_ne_nil _ _)] at hline
    cases i with
    | zero =>
      cases hline
      exact ⟨rfl, String.toList_ofList⟩
    | succ i => cases hline

/-- **Up to an unbroken row behind unbroken rows, the lines are the rows.** -/
theorem lines_getElem? {text : List Char} {i : Nat} {line : String}
    (hunbroken : ∀ row ∈ (rows text).take (i + 1), Unbroken row)
    (h : (linesFrom [] text)[i]? = some line) :
    ∃ row, (rows text)[i]? = some row ∧ line.toList = withoutReturn row := by
  by_cases hmem : '\n' ∈ text
  · obtain ⟨row, more, rfl, hrow⟩ := List.eq_append_cons_of_mem hmem
    rw [rows_cons hrow] at hunbroken ⊢
    rw [linesFrom_row (hunbroken row (by simp))] at h
    cases i with
    | zero =>
      cases h
      exact ⟨row, rfl, String.toList_ofList⟩
    | succ i => exact lines_getElem? (fun r hr => hunbroken r (List.mem_cons_of_mem _ hr)) h
  · rw [rows_last hmem] at hunbroken ⊢
    obtain ⟨rfl, hline⟩ := linesFrom_last_getElem? (hunbroken text (by simp)) h
    exact ⟨text, rfl, hline⟩

end ThreeAddress.Text
