import Rulebook.Decimal.Width

/-!
# Numbers of 64-bit floating point

A document can hold a number that is no integer. It is kept as a **binary64**, given by its bit
pattern: a sign, eleven bits of exponent and fifty-two of fraction. Arithmetic on it is exact
arithmetic on fractions followed by one rounding, `ofRatio`, to the nearest binary64 and, halfway
between two, to the one with the even last bit. What exceeds the largest finite number becomes
infinite.

The rounding is the only place where a value is lost; `magnitude?` gives the exact fraction
`significand · 2 ^ exponent` that a finite number stands for.
-/

namespace Rulebook.Decimal

/-- **A 64-bit floating-point number** as its bit pattern. -/
structure Binary64 where
  /-- Sign, exponent and fraction, from the highest bit down. -/
  bits : UInt64
deriving DecidableEq, Inhabited, Repr

namespace Binary64

/-- Whether the sign bit is set. -/
def isNegative (x : Binary64) : Bool := x.bits.toNat / twoPow 63 == 1

/-- The eleven bits of the exponent. -/
def exponentField (x : Binary64) : Nat := x.bits.toNat / twoPow 52 % twoPow 11

/-- The fifty-two bits of the fraction. -/
def fractionField (x : Binary64) : Nat := x.bits.toNat % twoPow 52

/-- Whether the number is neither infinite nor undefined. -/
def isFinite (x : Binary64) : Bool := x.exponentField != 2047

/-- Whether the number is undefined. -/
def isNaN (x : Binary64) : Bool := x.exponentField == 2047 && x.fractionField != 0

/-- Builds a number from its sign, exponent field and fraction field. -/
def ofFields (negative : Bool) (exponentField fractionField : Nat) : Binary64 :=
  ⟨UInt64.ofNat ((if negative then twoPow 63 else 0) + exponentField * twoPow 52 + fractionField)⟩

/-- Zero. -/
def zero : Binary64 := ofFields false 0 0

/-- Infinity. -/
def infinity : Binary64 := ofFields false 2047 0

/-- The undefined number. -/
def nan : Binary64 := ofFields false 2047 (twoPow 51)

/-- The number with the opposite sign. -/
def neg (x : Binary64) : Binary64 := ofFields (!x.isNegative) x.exponentField x.fractionField

/-- **The exact size of a finite number**: a significand and a power of two to scale it by. -/
def magnitude (x : Binary64) : Nat × Int :=
  if x.exponentField == 0 then (x.fractionField, -1074)
  else (twoPow 52 + x.fractionField, (x.exponentField : Int) - 1075)

/-- Rounds the quotient of two numbers to the nearest integer, halfway to the even one. -/
def roundQuotient (numerator denominator : Nat) : Nat :=
  let quotient := numerator / denominator
  let twice := 2 * (numerator % denominator)
  if twice < denominator then quotient
  else if denominator < twice then quotient + 1
  else quotient + quotient % 2

/-- The quotient of `numerator · 2 ^ shift` and `denominator` as a fraction of naturals. -/
def scaled (numerator denominator : Nat) (shift : Int) : Nat × Nat :=
  if 0 ≤ shift then (numerator * twoPow shift.toNat, denominator)
  else (numerator, denominator * twoPow (-shift).toNat)

/-- **The nearest binary64** to a quotient of naturals, the denominator being positive. -/
def ofRatio (numerator denominator : Nat) : Binary64 :=
  if numerator = 0 then zero
  else
    let guess : Int := (Nat.log2 numerator : Int) - Nat.log2 denominator - 52
    let fraction := scaled numerator denominator (-guess)
    let exponent : Int :=
      max (if fraction.1 / fraction.2 < twoPow 52 then guess - 1 else guess) (-1074)
    let fraction := scaled numerator denominator (-exponent)
    let significand := roundQuotient fraction.1 fraction.2
    let (significand, exponent) :=
      if significand = twoPow 53 then (twoPow 52, exponent + 1) else (significand, exponent)
    if exponent > 971 then infinity
    else if significand < twoPow 52 then ofFields false 0 significand
    else ofFields false (exponent + 1075).toNat (significand - twoPow 52)

/-- The nearest binary64 to `significand · 2 ^ exponent`. -/
def ofScaled (significand : Nat) (exponent : Int) : Binary64 :=
  let fraction := scaled significand 1 exponent
  ofRatio fraction.1 fraction.2

/-- **The nearest binary64** to `digits · 10 ^ exponent`. Sizes that no binary64 reaches are
settled without computing the power. -/
def ofDecimal (digits : Nat) (exponent : Int) : Binary64 :=
  if digits = 0 then zero
  else
    let size : Int := (Nat.log2 digits / 3 : Nat) + 1 + exponent
    if 400 < (Nat.log2 digits / 4 : Nat) + exponent then infinity
    else if size < -400 then zero
    else if 0 ≤ exponent then ofRatio (digits * tenPow exponent.toNat) 1
    else ofRatio digits (tenPow (-exponent).toNat)

/-- The rounded product of two finite numbers, without their signs. -/
def mulMagnitude (x y : Binary64) : Binary64 :=
  ofScaled (x.magnitude.1 * y.magnitude.1) (x.magnitude.2 + y.magnitude.2)

/-- The rounded quotient of two finite numbers, without their signs; the divisor is not zero. -/
def divMagnitude (x y : Binary64) : Binary64 :=
  let fraction := scaled x.magnitude.1 y.magnitude.1 (x.magnitude.2 - y.magnitude.2)
  ofRatio fraction.1 fraction.2

end Binary64

end Rulebook.Decimal
