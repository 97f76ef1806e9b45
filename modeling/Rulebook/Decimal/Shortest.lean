import Rulebook.Decimal.Binary64

/-!
# The fewest digits that read back

A finite binary64 is shown by the **shortest** decimal that is read back as the same number, and
of several that are equally short by the one nearest to it. The reals that round to the number form
an interval around it – closed when its significand is even, open when it is odd – so the question
is which is the coarsest decimal grid with a point in that interval. A grid has a point in the
interval only if one of the number's two neighbours on that grid lies there, and seventeen digits
always suffice.
-/

namespace Rulebook.Decimal

/-- **A decimal** `digits · 10 ^ exponent`. -/
structure Scientific where
  /-- The digits as one natural number. -/
  digits : Nat
  /-- The power of ten to scale them by. -/
  exponent : Int
deriving DecidableEq, Repr

namespace Binary64

/-- Whether the fraction `a / b` is below `c / d`; on equality the answer is `tie`. -/
def fractionBefore (tie : Bool) (a b c d : Nat) : Bool :=
  a * d < c * b || (tie && a * d == c * b)

/-- **The interval of a number**: four times its value, and the bounds of the reals that round to
it, all over one denominator. Below a power of two the neighbours are half as far apart. -/
def interval (x : Binary64) : Nat × Nat × Nat × Nat :=
  let (significand, exponent) := x.magnitude
  let narrow := x.fractionField == 0 && 1 < x.exponentField
  let unit := scaled 1 4 exponent
  let value := 4 * significand
  (unit.1 * (value - if narrow then 1 else 2), unit.1 * value, unit.1 * (value + 2), unit.2)

/-- The decimal of a grid that reads back as the number, if one of its two neighbours on the grid
does; of two the nearer, and the even one when they are equally near. -/
def onGrid? (x : Binary64) (grid : Int) : Option Nat :=
  let (below, value, above, denominator) := x.interval
  let closed := x.magnitude.1 % 2 == 0
  let power := tenPow grid.natAbs
  -- the value in units of the grid is `numerator / divisor`
  let factor := if 0 ≤ grid then 1 else power
  let divisor := if 0 ≤ grid then denominator * power else denominator
  let lower := value * factor / divisor
  let inside (k : Nat) : Bool :=
    fractionBefore closed (below * factor) divisor k 1 &&
      fractionBefore closed k 1 (above * factor) divisor
  let left := value * factor - lower * divisor
  let right := (lower + 1) * divisor - value * factor
  match inside lower, inside (lower + 1) with
  | true, true =>
    some (if left < right || (left == right && lower % 2 == 0) then lower else lower + 1)
  | true, false => some lower
  | false, true => some (lower + 1)
  | false, false => none

/-- The number of decimal digits of a natural number. -/
def digitCount (n : Nat) : Nat := (Nat.toDigits 10 n).length

/-- The first of the coarsest grids, down to `fuel` steps finer, that has a decimal of the
number. -/
def firstGrid (x : Binary64) : Nat → Int → Scientific
  | 0, grid => ⟨(x.onGrid? grid).getD 0, grid⟩
  | fuel + 1, grid =>
    match x.onGrid? grid with
    | some digits => ⟨digits, grid⟩
    | none => firstGrid x fuel (grid - 1)

/-- Removes the zeros at the end of the digits. -/
def dropZeros : Nat → Scientific → Scientific
  | 0, s => s
  | fuel + 1, s =>
    if s.digits != 0 && s.digits % 10 == 0 then dropZeros fuel ⟨s.digits / 10, s.exponent + 1⟩
    else s

/-- **The shortest decimal** of a finite number that is not zero. -/
def shortest (x : Binary64) : Scientific :=
  let (_, value, _, denominator) := x.interval
  let size : Int :=
    if denominator ≤ value then digitCount (value / denominator)
    else -(digitCount (denominator / value))
  dropZeros 20 (firstGrid x 22 (size + 1))

end Binary64

end Rulebook.Decimal
