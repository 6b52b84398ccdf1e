import ThreeAddress.Number.Shortest

/-!
# Decimal layout

How a decimal is laid out as text, given a record of the format's decisions: which exponents are
written positionally, how wide an exponent is, and the words for the values that are no number.
-/

namespace ThreeAddress.Number

/-- The decisions of a number format. -/
structure Layout where
  /-- The least exponent of the leading digit that is written positionally. -/
  positionalFrom : Int
  /-- The least exponent of the leading digit that is again written with an exponent. -/
  positionalBefore : Int
  /-- The least count of digits of a written exponent. -/
  exponentWidth : Nat
  infinity : String
  notANumber : String

/-- The digits without the zeros that they end with. -/
def stripZeros (digits : List Char) : List Char := (digits.reverse.dropWhile (· = '0')).reverse

/-- Digits with the decimal point after the first `point` of them; there is at least one digit on
each side of it. -/
def positional (digits : List Char) (point : Int) : List Char :=
  if point ≤ 0 then '0' :: '.' :: List.replicate (-point).toNat '0' ++ digits
  else if digits.length ≤ point then
    digits ++ List.replicate (point.toNat - digits.length) '0' ++ ['.', '0']
  else digits.take point.toNat ++ '.' :: digits.drop point.toNat

/-- A signed exponent of at least the given width. -/
def exponentText (width : Nat) (exponent : Int) : List Char :=
  let digits := Nat.toDigits 10 exponent.natAbs
  'e' :: (if exponent < 0 then '-' else '+') ::
    List.replicate (width - digits.length) '0' ++ digits

/-- Digits with the point after the first of them and an exponent. -/
def scientific (width : Nat) (digits : List Char) (exponent : Int) : List Char :=
  (match digits with
    | [] => []
    | [d] => [d]
    | d :: rest => d :: '.' :: rest) ++ exponentText width exponent

namespace Layout

/-- A positive decimal as text. -/
def decimal (form : Layout) (d : Decimal) : List Char :=
  let all := Nat.toDigits 10 d.digits
  let leading : Int := all.length + d.exponent - 1
  if form.positionalFrom ≤ leading ∧ leading < form.positionalBefore then
    positional (stripZeros all) (leading + 1)
  else scientific form.exponentWidth (stripZeros all) leading

/-- A double as text. A zero keeps its sign. -/
def float (form : Layout) (x : Float) : String :=
  if x.isNaN then form.notANumber
  else
    let sign := if x.toBits >>> 63 = 1 then "-" else ""
    if x.isInf then sign ++ form.infinity
    else
      let magnitude := Dyadic.ofBits x.toBits
      if magnitude.significand = 0 then sign ++ "0.0"
      else sign ++ String.ofList (form.decimal magnitude.shortest)

end Layout

end ThreeAddress.Number
