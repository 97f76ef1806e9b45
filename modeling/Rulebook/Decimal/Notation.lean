import Rulebook.Decimal.Shortest

/-!
# How a number is written

The digits of a number are one matter, where its point stands another. A **style** says which
sizes are written out in full, whether a whole number still shows a point, and what stands for the
numbers that have no digits. There are two: `Style.json`, the style of documents, which turns to an
exponent outside `1e-5 ≤ |x| < 1e16`, and `Style.plain`, the style of messages, which never does.
`Style.bare` differs from the first in the sign of an exponent only.
-/

namespace Rulebook.Decimal

/-- **The decisions of a notation.** -/
structure Style where
  /-- The least and the greatest exponent, counted from before the first digit, that are written
  without an exponent; `none` when all are. -/
  positional : Option (Int × Int)
  /-- Whether a whole number shows `.0`. -/
  pointAlways : Bool
  /-- Whether an exponent that is not negative shows a plus sign. -/
  plusSign : Bool

/-- **Documents**: positional for `1e-5 ≤ |x| < 1e16`, a whole number with `.0`. -/
def Style.json : Style := ⟨some (-4, 16), true, true⟩

/-- **Numbers among text**: as in documents, but an exponent shows no plus sign. -/
def Style.bare : Style := ⟨some (-4, 16), true, false⟩

/-- **Messages**: always positional, a whole number without a point. -/
def Style.plain : Style := ⟨none, false, false⟩

/-- The digits of a natural number. -/
def digitsOf (n : Nat) : List Char := Nat.toDigits 10 n

/-- Writes digits with the point after the first `point` of them, filling with zeros on either
side. -/
def positional (digits : List Char) (point : Int) (pointAlways : Bool) : List Char :=
  if point ≤ 0 then
    ['0', '.'] ++ List.replicate (-point).toNat '0' ++ digits
  else if digits.length ≤ point.toNat then
    digits ++ List.replicate (point.toNat - digits.length) '0' ++
      (if pointAlways then ['.', '0'] else [])
  else digits.take point.toNat ++ ['.'] ++ digits.drop point.toNat

/-- Writes digits with an exponent, one digit before the point. -/
def scientific (digits : List Char) (point : Int) (plusSign : Bool) : List Char :=
  let exponent := point - 1
  let fraction := digits.drop 1
  digits.take 1 ++ (if fraction.isEmpty then [] else '.' :: fraction) ++
    ['e'] ++ (if exponent < 0 then ['-'] else if plusSign then ['+'] else []) ++
    digitsOf exponent.natAbs

/-- The text of the size of a finite number. -/
def magnitudeText (style : Style) (x : Binary64) : List Char :=
  if x.magnitude.1 == 0 then if style.pointAlways then ['0', '.', '0'] else ['0']
  else
    let s := x.shortest
    let digits := digitsOf s.digits
    let point : Int := digits.length + s.exponent
    match style.positional with
    | none => positional digits point style.pointAlways
    | some (least, greatest) =>
      if least ≤ point && point ≤ greatest then positional digits point style.pointAlways
      else scientific digits point style.plusSign

/-- **The text of a number** in a style. -/
def Binary64.text (x : Binary64) (style : Style) : String :=
  if x.isNaN then "NaN"
  else
    let size := if x.isFinite then magnitudeText style x else ['i', 'n', 'f']
    String.ofList (if x.isNegative then '-' :: size else size)

end Rulebook.Decimal
