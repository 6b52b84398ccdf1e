/-!
# The shortest decimal of a double

A positive finite double stands for an interval of reals, those that round to it. Among the
decimals in that interval the one with the fewest digits is chosen, of several such the one
nearest to the double, and of two equally near ones the one that ends in an even digit.
All comparisons are exact, over the natural numbers.

The search goes through the grids of one to seventeen digits. On each grid it is enough to try
the two neighbours of the double: if a point of the grid lies in the interval, so does one of
these two. Should no grid have a hit, the exact decimal expansion is taken, which is always in
the interval.
-/

namespace ThreeAddress.Number

/-- The decimal `digits * 10 ^ exponent`. -/
structure Decimal where
  digits : Nat
  exponent : Int
  deriving DecidableEq, Repr

/-- The positive real `significand * 2 ^ exponent`, with the mark whether its neighbour below is
nearer than its neighbour above. -/
structure Dyadic where
  significand : Nat
  exponent : Int
  nearBelow : Bool
  deriving DecidableEq, Repr

namespace Dyadic

/-- The magnitude of a finite double given by its bits. -/
def ofBits (bits : UInt64) : Dyadic :=
  let scale := ((bits >>> 52) &&& 0x7FF).toNat
  let fraction := (bits &&& 0xFFFFFFFFFFFFF).toNat
  if scale = 0 then ⟨fraction, -1074, false⟩
  else ⟨0x10000000000000 + fraction, scale - 1075, fraction == 0 && 1 < scale⟩

/-- Compares `a * 10 ^ i` with `n * 2 ^ j`. -/
def compareScaled (a : Nat) (i : Int) (n : Nat) (j : Int) : Ordering :=
  compare (a * Nat.pow 10 i.toNat * Nat.pow 2 (-j).toNat)
    (n * Nat.pow 2 j.toNat * Nat.pow 10 (-i).toNat)

/-- Whether a decimal rounds to the double: it lies between the points halfway to the two
neighbours, and a point halfway counts if the significand is even. The unit is a quarter of the
distance to the neighbour above. -/
def rounds (x : Dyadic) (d : Decimal) : Bool :=
  let low := compareScaled d.digits d.exponent
    (4 * x.significand - (if x.nearBelow then 1 else 2)) (x.exponent - 2)
  let high := compareScaled d.digits d.exponent (4 * x.significand + 2) (x.exponent - 2)
  let ends := x.significand % 2 == 0
  (low == .gt || (ends && low == .eq)) && (high == .lt || (ends && high == .eq))

/-- The double as a quotient of natural numbers. -/
def ratio (x : Dyadic) : Nat × Nat :=
  (x.significand * Nat.pow 2 x.exponent.toNat, Nat.pow 2 (-x.exponent).toNat)

/-- How many decimal digits a natural number has; zero has one. -/
def digitCount (n : Nat) : Nat := (Nat.toDigits 10 n).length

/-- The exponent of the leading decimal digit: the greatest `k` with `10 ^ k ≤ x`. -/
def leadingExponent (x : Dyadic) : Int :=
  let (num, den) := x.ratio
  if den ≤ num then digitCount (num / den) - 1
  else -(digitCount ((den - 1) / num) : Int)

/-- The neighbour of the double on the grid of multiples of `10 ^ exponent` that rounds to the
double; of two such the nearer, of two equally near the even one. -/
def onGrid? (x : Dyadic) (exponent : Int) : Option Decimal :=
  let num := x.ratio.1 * Nat.pow 10 (-exponent).toNat
  let den := x.ratio.2 * Nat.pow 10 exponent.toNat
  let below : Decimal := ⟨num / den, exponent⟩
  let above : Decimal := ⟨num / den + 1, exponent⟩
  match x.rounds below, x.rounds above with
  | true, true =>
    match compare (2 * (num % den)) den with
    | .lt => some below
    | .gt => some above
    | .eq => some (if below.digits % 2 = 0 then below else above)
  | true, false => some below
  | false, true => some above
  | false, false => none

/-- The value of the double written out in full. -/
def expansion (x : Dyadic) : Decimal :=
  if 0 ≤ x.exponent then ⟨x.significand * Nat.pow 2 x.exponent.toNat, 0⟩
  else ⟨x.significand * Nat.pow 5 (-x.exponent).toNat, x.exponent⟩

/-- The decimal with the fewest digits that rounds to the double. -/
def shortest (x : Dyadic) : Decimal :=
  let leading := x.leadingExponent
  ((List.range 17).findSome? fun n : Nat => x.onGrid? (leading - n)).getD x.expansion

end Dyadic

end ThreeAddress.Number
