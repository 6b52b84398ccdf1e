import ThreeAddress.Proofs.Number.Text
import ThreeAddress.Proofs.Token.Longest

/-!
# Aligned texts

When two texts that are put together from parts are equal, are their parts equal? In general they
are not, since a part may run into the next one. So each pair of parts is looked at with unknown
texts behind it, and what is shown is that these start at the same place. The texts are lists: of
characters, or of rows.

* `Aligns u v P`: texts that start with `u` and with `v` are equal only if `P` holds, and then they
  are equal behind them, too.
* `AlignsBefore B u v P`: the same, as long as `B` holds of what stands behind `u` and `v`.
* `Aligns.append`, `AlignsBefore.append`, `AlignsBefore.literal`: texts that are aligned part by
  part, from left to right, are aligned.
* `Aligns.upTo`: a run of characters is cut where another character stops it.
* `Breaks`: no number runs into the text (`AlignsBefore.number`).
-/

namespace ThreeAddress

variable {α : Type} {u v w w' : List α} {B B' : List α → Prop} {P Q : Prop}

/-- Texts that start with `u` and with `v` are equal only if `P` holds, and then they are equal
behind them. -/
def Aligns (u v : List α) (P : Prop) : Prop := ∀ r r', u ++ r = v ++ r' → P ∧ r = r'

/-- Texts that start with `u` and with `v`, with something behind them of which `B` holds, are equal
only if `P` holds, and then they are equal behind them. -/
def AlignsBefore (B : List α → Prop) (u v : List α) (P : Prop) : Prop :=
  ∀ r r', B r → B r' → u ++ r = v ++ r' → P ∧ r = r'

/-! ## With anything behind -/

namespace Aligns

theorem mono (h : Aligns u v P) (hPQ : P → Q) : Aligns u v Q := by
  intro r r' heq
  obtain ⟨hP, hrest⟩ := h r r' heq
  exact ⟨hPQ hP, hrest⟩

theorem symm (h : Aligns u v P) : Aligns v u P := by
  intro r r' heq
  obtain ⟨hP, hrest⟩ := h r' r heq.symm
  exact ⟨hP, hrest.symm⟩

theorem before (h : Aligns u v P) (B : List α → Prop) : AlignsBefore B u v P :=
  fun r r' _ _ => h r r'

/-- Nothing stands behind the texts. -/
theorem of_eq (h : Aligns u v P) (heq : u = v) : P := (h [] [] (by rw [heq])).1

/-- Equal texts are aligned. -/
theorem same (w : List α) : Aligns w w True :=
  fun _ _ heq => ⟨trivial, List.append_cancel_left heq⟩

/-- One element each, in front. -/
theorem cons {a b : α} (h : Aligns u v P) : Aligns (a :: u) (b :: v) (a = b ∧ P) := by
  intro r r' heq
  obtain ⟨hab, heq⟩ := List.cons.inj heq
  obtain ⟨hP, hrest⟩ := h r r' heq
  exact ⟨⟨hab, hP⟩, hrest⟩

/-- **Two parts, one behind the other.** -/
theorem append (h : Aligns u v P) (h' : Aligns w w' Q) : Aligns (u ++ w) (v ++ w') (P ∧ Q) := by
  intro r r' heq
  rw [List.append_assoc, List.append_assoc] at heq
  obtain ⟨hP, hrest⟩ := h _ _ heq
  obtain ⟨hQ, hrest⟩ := h' r r' hrest
  exact ⟨⟨hP, hQ⟩, hrest⟩

theorem appendBefore (h : Aligns u v P) (h' : AlignsBefore B w w' Q) :
    AlignsBefore B (u ++ w) (v ++ w') (P ∧ Q) := by
  intro r r' hr hr' heq
  rw [List.append_assoc, List.append_assoc] at heq
  obtain ⟨hP, hrest⟩ := h _ _ heq
  obtain ⟨hQ, hrest⟩ := h' r r' hr hr' hrest
  exact ⟨⟨hP, hQ⟩, hrest⟩

/-- The same text stands behind both. -/
theorem literal (h : Aligns u v P) (w : List α) : Aligns (u ++ w) (v ++ w) P :=
  (h.append (same w)).mono And.left

/-- Texts that never start equally are not equal in what follows, either. -/
theorem never_append (h : Aligns u v False) (w : List α) : Aligns u (v ++ w) False := by
  intro r r' heq
  rw [List.append_assoc] at heq
  exact (h _ _ heq).1.elim

/-- Texts with different first elements are never equal. -/
theorem of_head_ne {a b : α} (hu : u.head? = some a) (hv : v.head? = some b) (hne : a ≠ b) :
    Aligns u v P := by
  intro r r' heq
  have hhead := congrArg List.head? heq
  rw [List.head?_append, List.head?_append, hu, hv] at hhead
  exact absurd (Option.some.inj hhead) hne

end Aligns

/-! ## With a condition on what stands behind -/

namespace AlignsBefore

theorem mono (h : AlignsBefore B u v P) (hPQ : P → Q) : AlignsBefore B u v Q := by
  intro r r' hr hr' heq
  obtain ⟨hP, hrest⟩ := h r r' hr hr' heq
  exact ⟨hPQ hP, hrest⟩

theorem symm (h : AlignsBefore B u v P) : AlignsBefore B v u P := by
  intro r r' hr hr' heq
  obtain ⟨hP, hrest⟩ := h r' r hr' hr heq.symm
  exact ⟨hP, hrest.symm⟩

theorem restrict (h : AlignsBefore B u v P) (hB : ∀ r, B' r → B r) : AlignsBefore B' u v P :=
  fun r r' hr hr' => h r r' (hB r hr) (hB r' hr')

theorem cons {a b : α} (h : AlignsBefore B u v P) :
    AlignsBefore B (a :: u) (b :: v) (a = b ∧ P) := by
  intro r r' hr hr' heq
  obtain ⟨hab, heq⟩ := List.cons.inj heq
  obtain ⟨hP, hrest⟩ := h r r' hr hr' heq
  exact ⟨⟨hab, hP⟩, hrest⟩

/-- Nothing stands behind the texts. -/
theorem of_eq (h : AlignsBefore B u v P) (hB : B []) (heq : u = v) : P :=
  (h [] [] hB hB (by rw [heq])).1

/-- **Two parts, one behind the other**, if the second meets the condition of the first. -/
theorem append (h : AlignsBefore B u v P) (h' : AlignsBefore B' w w' Q)
    (hw : ∀ r, B' r → B (w ++ r)) (hw' : ∀ r, B' r → B (w' ++ r)) :
    AlignsBefore B' (u ++ w) (v ++ w') (P ∧ Q) := by
  intro r r' hr hr' heq
  rw [List.append_assoc, List.append_assoc] at heq
  obtain ⟨hP, hrest⟩ := h _ _ (hw r hr) (hw' r' hr') heq
  obtain ⟨hQ, hrest⟩ := h' r r' hr hr' hrest
  exact ⟨⟨hP, hQ⟩, hrest⟩

/-- The same text stands behind both, and meets the condition. -/
theorem literal (h : AlignsBefore B u v P) (w : List α) (hw : ∀ r, B (w ++ r)) :
    Aligns (u ++ w) (v ++ w) P := by
  intro r r' heq
  rw [List.append_assoc, List.append_assoc] at heq
  obtain ⟨hP, hrest⟩ := h _ _ (hw r) (hw r') heq
  exact ⟨hP, List.append_cancel_left hrest⟩

end AlignsBefore

/-! ## Runs of characters -/

section Characters

variable {u v w w' r r' : List Char} {p : Char → Bool}

/-- Runs of characters that are stopped in equal texts are equal. -/
theorem eq_of_runs (hu : ∀ c ∈ u, p c = true) (hv : ∀ c ∈ v, p c = true)
    (hr : ∀ c ∈ r.head?, p c = false) (hr' : ∀ c ∈ r'.head?, p c = false)
    (h : u ++ r = v ++ r') : u = v ∧ r = r' := by
  have huv : u = v := by
    rw [← Token.takeWhile_append_of_ends hu hr, h, Token.takeWhile_append_of_ends hv hr']
  subst huv
  exact ⟨rfl, List.append_cancel_left h⟩

/-- **A run of characters is cut where another character stops it.** -/
theorem Aligns.upTo {c : Char} (h : Aligns u v P) (hw : ∀ d ∈ w, p d = true)
    (hw' : ∀ d ∈ w', p d = true) (hc : p c = false) :
    Aligns (u ++ w ++ [c]) (v ++ w' ++ [c]) (P ∧ w = w') := by
  intro r r' heq
  simp only [List.append_assoc] at heq
  obtain ⟨hP, hrest⟩ := h _ _ heq
  have hstop : ∀ s : List Char, ∀ d ∈ ([c] ++ s).head?, p d = false := by
    intro s d hd
    cases hd
    exact hc
  obtain ⟨hsame, hrest⟩ := eq_of_runs hw hw' (hstop r) (hstop r') hrest
  exact ⟨⟨hP, hsame⟩, (List.cons.inj hrest).2⟩

/-- The text does not start with a character of numbers. -/
def Breaks (rest : List Char) : Prop := ∀ c ∈ rest.head?, Literal.isNumberChar c = false

theorem breaks_nil : Breaks [] := fun _ hc => absurd hc (Option.not_mem_none _)

/-- A text whose first character is none of numbers breaks, whatever stands behind it. -/
theorem breaks_append (h : u.head?.any (fun c => !Literal.isNumberChar c) = true)
    (rest : List Char) : Breaks (u ++ rest) := by
  cases u with
  | nil => cases h
  | cons c cs =>
    intro d hd
    cases hd
    simpa using h

/-- A number is cut where the text breaks. -/
theorem AlignsBefore.number (hu : ∀ c ∈ u, Literal.isNumberChar c = true)
    (hv : ∀ c ∈ v, Literal.isNumberChar c = true) : AlignsBefore Breaks u v (u = v) :=
  fun _ _ hr hr' heq => eq_of_runs hu hv hr hr' heq

end Characters

end ThreeAddress
