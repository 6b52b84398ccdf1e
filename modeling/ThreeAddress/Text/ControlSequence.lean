/-!
# Control sequences

A terminal takes an escape character, an opening bracket, parameters and a final letter as a
command, such as a change of colour. A channel that is no terminal shows a text without them.

Sequences are found from left to right. What is left after a sequence has been taken out is not
looked at again, so that the pieces around it do not make up a new one.

## Main results

* `withoutControl_eq_self`: a text without escape characters stays as it is.
-/

namespace ThreeAddress.Text

/-- The character that opens a control sequence. -/
def escape : Char := '\x1b'

/-- Whether a character can be part of the parameters of a control sequence. -/
def isParameter (c : Char) : Bool := c.isDigit || c = ';' || c = '?'

/-- The number of characters of the control sequence at the front of a text. -/
def controlLength? : List Char → Option Nat
  | first :: '[' :: rest =>
    if first = escape then
      match rest.dropWhile isParameter with
      | final :: _ =>
        if final.isAlpha then some ((rest.takeWhile isParameter).length + 3) else none
      | [] => none
    else none
  | _ => none

/-- A text without control sequences, where the first `skip` characters belong to a sequence that
has been found already. -/
def withoutControlFrom (skip : Nat) : List Char → List Char
  | [] => []
  | c :: rest =>
    match skip with
    | n + 1 => withoutControlFrom n rest
    | 0 =>
      match controlLength? (c :: rest) with
      | some length => withoutControlFrom (length - 1) rest
      | none => c :: withoutControlFrom 0 rest

/-- A text without control sequences. -/
def withoutControl (text : String) : String := String.ofList (withoutControlFrom 0 text.toList)

theorem controlLength?_of_ne {c : Char} (h : c ≠ escape) (rest : List Char) :
    controlLength? (c :: rest) = none := by
  unfold controlLength?
  split
  · rename_i heq
    obtain ⟨rfl, -⟩ := List.cons.inj heq
    exact if_neg h
  · rfl

theorem withoutControlFrom_eq_self {text : List Char} (h : escape ∉ text) :
    withoutControlFrom 0 text = text := by
  induction text with
  | nil => rfl
  | cons c rest ih =>
    have hc : c ≠ escape := fun e => h (e ▸ List.mem_cons_self ..)
    have hrest : escape ∉ rest := fun m => h (List.mem_cons_of_mem _ m)
    simp only [withoutControlFrom, controlLength?_of_ne hc, ih hrest]

theorem withoutControl_eq_self {text : String} (h : escape ∉ text.toList) :
    withoutControl text = text := by
  rw [withoutControl, withoutControlFrom_eq_self h, String.ofList_toList]

end ThreeAddress.Text
