import ThreeAddress.Number.Layout
import ThreeAddress.Text.Blank
import ThreeAddress.Text.DecimalDigit

/-!
# Literals

The written form of the numbers of a program and their reading. Digits may come from any script.
Integers are unbounded, but only those of at most `digitLimit` digits have a written form.
-/

namespace ThreeAddress.Literal

open Text

/-! ## Digits -/

/-- The digits of a text that holds nothing else, except that an underscore may stand between two
digits. `following` says that a digit has just been read. -/
def digitsFrom? (following : Bool) : List Char → Option (List Nat)
  | [] => if following then some [] else none
  | '_' :: rest => if following then digitsFrom? false rest else none
  | c :: rest => do
    let d ← digitValue? c
    let more ← digitsFrom? true rest
    return d :: more

/-- The digits of a text of at least one digit. -/
def digits? (text : List Char) : Option (List Nat) := digitsFrom? false text

/-- The number that a sequence of digits denotes, the most significant one first. -/
def value (digits : List Nat) : Nat := digits.foldl (fun n d => 10 * n + d) 0

/-- Takes a sign off the front of a text: whether it is a minus, and what follows. -/
def splitSign : List Char → Bool × List Char
  | '-' :: rest => (true, rest)
  | '+' :: rest => (false, rest)
  | text => (false, text)

/-- Whether a blank may surround a number: all may, except the information separators. -/
def isMargin (c : Char) : Bool := isBlank c && !('\x1c' ≤ c && c ≤ '\x1f')

/-- A text without the blanks around it. -/
def withoutMargins (text : List Char) : List Char :=
  ((text.dropWhile isMargin).reverse.dropWhile isMargin).reverse

/-! ## Integers -/

/-- The greatest count of digits that an integer's text can have. -/
def digitLimit : Nat := 4300

/-- Whether an integer has a written form. -/
def hasText (n : Int) : Bool := n.natAbs < Nat.pow 10 digitLimit

/-- The integer that a text denotes. Leading zeros count as digits, the sign does not. -/
def readInt? (text : List Char) : Option Int := do
  let (negative, digitText) := splitSign (withoutMargins text)
  let digits ← digits? digitText
  if digits.length ≤ digitLimit then
    some (if negative then -(value digits : Int) else value digits)
  else none

/-- An integer in decimal digits. -/
def intText (n : Int) : String := toString n

/-! ## Floats -/

/-- Floats are written with the fewest digits that read back: positionally from `1e-4` to below
`1e16`, otherwise with a signed exponent of at least two digits. -/
def floatLayout : Number.Layout where
  positionalFrom := -4
  positionalBefore := 16
  exponentWidth := 2
  infinity := "inf"
  notANumber := "nan"

/-- A float in its shortest form. -/
def floatText (x : Float) : String := floatLayout.float x

/-- Positive infinity. -/
def infinity : Float := Float.ofBits 0x7FF0000000000000

/-- The value that is no number. -/
def notANumber : Float := Float.ofBits 0x7FF8000000000000

/-- The double nearest to `digits * 10 ^ exponent`. Beyond the range of doubles the answer is known
without computing the power. -/
def nearest (digits : Nat) (exponent : Int) : Float :=
  let leading := (Number.Dyadic.digitCount digits : Int) + exponent
  if digits = 0 ∨ leading < -330 then 0.0
  else if 310 < leading then infinity
  else Float.ofScientific digits (exponent < 0) exponent.natAbs

/-- Splits a text at the first character that satisfies `p`; the character itself is dropped. -/
def splitAtFirst (p : Char → Bool) (text : List Char) : List Char × Option (List Char) :=
  match text.span (!p ·) with
  | (before, []) => (before, none)
  | (before, _ :: after) => (before, some after)

/-- The digits of a part of a number that may be missing. -/
def optionalDigits? (text : List Char) : Option (List Nat) :=
  if text.isEmpty then some [] else digits? text

/-- The exponent of a number, zero if there is none. -/
def readExponent? : Option (List Char) → Option Int
  | none => some 0
  | some text => do
    let (negative, digitText) := splitSign text
    let digits ← digits? digitText
    return if negative then -(value digits : Int) else value digits

/-- The float that a text of digits, an optional point and an optional exponent denotes. There is a
digit before or after the point. -/
def readMagnitude? (text : List Char) : Option Float := do
  let (mantissa, exponentDigits) := splitAtFirst (fun c => c = 'e' || c = 'E') text
  let exponent ← readExponent? exponentDigits
  let (whole, fraction) := splitAtFirst (· = '.') mantissa
  let wholeDigits ← optionalDigits? whole
  let fractionDigits ← optionalDigits? (fraction.getD [])
  if wholeDigits.isEmpty && fractionDigits.isEmpty then none
  else some (nearest (value (wholeDigits ++ fractionDigits)) (exponent - fractionDigits.length))

/-- The float that a text denotes: a decimal, an infinity or no number, with an optional sign. The
words are read in either case. -/
def readFloat? (text : List Char) : Option Float := do
  let (negative, magnitude) := splitSign (withoutMargins text)
  let word := String.ofList (magnitude.map Char.toLower)
  let x ←
    if word = "inf" ∨ word = "infinity" then some infinity
    else if word = "nan" then some notANumber
    else readMagnitude? magnitude
  return if negative then -x else x

end ThreeAddress.Literal
