import Rulebook.Decimal.Binary64

/-!
# Numerals

A numeral is a list of characters that spells a number: digits in some base, or decimal digits with
a point and an exponent. What is not a numeral spells nothing; there is no partial reading.
-/

namespace Rulebook.Decimal

/-- The value of a digit in a base up to sixteen. -/
def digitValue? (base : Nat) (c : Char) : Option Nat :=
  let value? :=
    if c.isDigit then some (c.toNat - '0'.toNat)
    else if 'a' ≤ c && c ≤ 'f' then some (c.toNat - 'a'.toNat + 10)
    else if 'A' ≤ c && c ≤ 'F' then some (c.toNat - 'A'.toNat + 10)
    else none
  value?.filter (· < base)

/-- The natural number that digits of a base spell. There must be one. -/
def natural? (base : Nat) (digits : List Char) : Option Nat :=
  if digits.isEmpty then none
  else digits.foldlM (fun n c => (digitValue? base c).map (n * base + ·)) 0

/-- The decimal with a point or an exponent that characters spell: its digits, and the power of ten
to scale them by. There must be a digit in front of the exponent, and one in it. -/
def decimal? (chars : List Char) : Option (Nat × Int) :=
  let whole := chars.takeWhile Char.isDigit
  let rest := chars.drop whole.length
  let (fraction, rest) := match rest with
    | '.' :: rest =>
      let fraction := rest.takeWhile Char.isDigit
      (fraction, rest.drop fraction.length)
    | rest => ([], rest)
  let exponent? : Option Int := match rest with
    | [] => some 0
    | c :: rest =>
      if c != 'e' && c != 'E' then none
      else match rest with
        | '-' :: rest => (natural? 10 rest).map fun n => -(n : Int)
        | '+' :: rest => (natural? 10 rest).map fun n => (n : Int)
        | rest => (natural? 10 rest).map fun n => (n : Int)
  match natural? 10 (whole ++ fraction), exponent? with
  | some digits, some exponent => some (digits, exponent - fraction.length)
  | _, _ => none

/-- A sign, if there is one, and what follows it. -/
def splitSign : List Char → Bool × List Char
  | '+' :: rest => (false, rest)
  | '-' :: rest => (true, rest)
  | rest => (false, rest)

/-- **The number that characters with an optional sign spell**, which is infinite when it exceeds
every finite one. -/
def rounded? (chars : List Char) : Option Binary64 :=
  let (negative, digits) := splitSign chars
  (decimal? digits).map fun (digits, exponent) =>
    let value := Binary64.ofDecimal digits exponent
    if negative then value.neg else value

/-- The finite number that characters with an optional sign spell. -/
def finite? (chars : List Char) : Option Binary64 := (rounded? chars).filter (·.isFinite)

/-- **A whole number of at most the given size**, with an optional plus sign. -/
def bounded? (limit : Nat) (chars : List Char) : Option Nat :=
  let digits := match chars with
    | '+' :: rest => rest
    | rest => rest
  (natural? 10 digits).filter (· ≤ limit)

/-- **A whole number of 64 bits with an optional sign**: one without a minus sign may use all of
them. -/
def integer64? (chars : List Char) : Option Int :=
  match chars with
  | '-' :: rest => ((natural? 10 rest).filter (· ≤ twoPow 63)).map fun n => -(n : Int)
  | rest => (bounded? (twoPow 64 - 1) rest).map fun n => (n : Int)

end Rulebook.Decimal
