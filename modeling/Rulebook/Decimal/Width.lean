/-!
# Powers and widths

A machine number has so many bits and a decimal so many places; how many numbers that makes is a
power of two or of ten. A whole number fits into so many bits with a sign when it lies between two
such powers.
-/

namespace Rulebook.Decimal

/-- The power of two: how many numbers so many bits tell apart. -/
def twoPow (exponent : Nat) : Nat := Nat.pow 2 exponent

/-- The power of ten. -/
def tenPow (exponent : Nat) : Nat := Nat.pow 10 exponent

/-- **Whether a whole number fits into so many bits**, one of which is for the sign. -/
def fitsSigned (bits : Nat) (value : Int) : Bool :=
  -twoPow (bits - 1) ≤ value && value < twoPow (bits - 1)

end Rulebook.Decimal
