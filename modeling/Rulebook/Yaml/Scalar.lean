import Rulebook.Decimal.Numeral
import Rulebook.Decimal.Number

/-!
# What a plain scalar means

A scalar without quotes and without a tag is a null, a truth value, a number or a text, by its
spelling. The spellings are those of the core schema: integers in four bases, decimal ones without
leading zeros; numbers with a point or an exponent, and the infinities; four spellings of null and
three of each truth value.
-/

namespace Rulebook.Yaml.Scalar

open Rulebook.Decimal (Binary64 natural? finite?)

/-- Whether a text spells null. -/
def isNull (text : String) : Bool :=
  text == "null" || text == "Null" || text == "NULL" || text == "~"

/-- The truth value that a text spells. -/
def flag? (text : String) : Option Bool :=
  if text == "true" || text == "True" || text == "TRUE" then some true
  else if text == "false" || text == "False" || text == "FALSE" then some false
  else none

/-- Whether a list starts with a sign. -/
def startsWithSign (chars : List Char) : Bool := chars.head?.any fun c => c == '+' || c == '-'

/-- Whether a text is a decimal number with superfluous zeros in front, which makes it no
number. -/
def hasLeadingZeros (chars : List Char) : Bool :=
  let digits := if startsWithSign chars then chars.drop 1 else chars
  1 < digits.length && digits.head? == some '0' && digits.all Char.isDigit

/-- The base that the beginning of a number announces, and the digits behind it. -/
def basedDigits? : List Char → Option (Nat × List Char)
  | '0' :: 'x' :: rest => some (16, rest)
  | '0' :: 'o' :: rest => some (8, rest)
  | '0' :: 'b' :: rest => some (2, rest)
  | _ => none

/-- **The integer that a text spells.** A plus sign may stand in front. -/
def integer? (text : String) : Option Int :=
  let chars := text.toList
  if hasLeadingZeros chars then none
  else
    let (negative, digits) := match chars with
      | '+' :: rest => (false, rest)
      | '-' :: rest => (true, rest)
      | rest => (false, rest)
    let magnitude? := match basedDigits? digits with
      | some (base, digits) => natural? base digits
      | none => natural? 10 digits
    magnitude?.map fun n => if negative then -(n : Int) else n

/-- **The number with a point, an exponent or a name that a text spells.** -/
def float? (text : String) : Option Binary64 :=
  let chars := text.toList
  let unsigned := match chars with
    | '+' :: rest => rest
    | rest => rest
  if chars.head? == some '+' && startsWithSign unsigned then none
  else
    let name := String.ofList unsigned
    if name == ".inf" || name == ".Inf" || name == ".INF" then some Binary64.infinity
    else if text == "-.inf" || text == "-.Inf" || text == "-.INF" then some Binary64.infinity.neg
    else if text == ".nan" || text == ".NaN" || text == ".NAN" then some Binary64.nan
    else finite? unsigned

end Rulebook.Yaml.Scalar
