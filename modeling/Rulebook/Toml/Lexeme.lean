import Rulebook.Decimal.Numeral

/-!
# The smallest parts of TOML

Keys, strings, numbers and moments in time are read here, each by a function from the characters at
its beginning to what it stands for and the characters behind it; the answer is `none` where the
characters spell no such thing. A number may have underscores between its digits. A string is
written in one of four ways: with escapes or as it stands, on one line or on several.
-/

namespace Rulebook.Toml

open Rulebook.Decimal (Binary64 fitsSigned natural? digitValue? rounded? twoPow)

/-! ## Characters -/

/-- Whether a character is a space within a line. -/
def isSpace (c : Char) : Bool := c == ' ' || c == '\t'

/-- Whether a character may stand in a key without quotes. -/
def isKeyChar (c : Char) : Bool := c.isAlphanum || c == '_' || c == '-'

/-- Whether a character may stand in a comment. -/
def isCommentChar (c : Char) : Bool := c == '\t' || (32 ≤ c.toNat && c != '\x7f')

/-- Drops the spaces at the beginning. -/
def dropSpaces (chars : List Char) : List Char := chars.dropWhile isSpace

/-- Drops the comment that the characters start with, if they start with one. -/
def dropComment : List Char → List Char
  | '#' :: rest => rest.dropWhile isCommentChar
  | chars => chars

/-- Drops a line end. -/
def dropLineEnd? : List Char → Option (List Char)
  | '\n' :: rest => some rest
  | '\r' :: '\n' :: rest => some rest
  | _ => none

/-- Drops spaces, line ends and comments. -/
def dropGap : Nat → List Char → List Char
  | 0, chars => chars
  | fuel + 1, chars =>
    let chars := dropComment (dropSpaces chars)
    match dropLineEnd? chars with
    | some rest => dropGap fuel rest
    | none => chars

/-! ## Strings -/

/-- The character that an escape stands for, behind the backslash. -/
def readEscape : List Char → Option (Char × List Char)
  | 'b' :: rest => some ('\x08', rest)
  | 'f' :: rest => some ('\x0c', rest)
  | 'n' :: rest => some ('\n', rest)
  | 'r' :: rest => some ('\r', rest)
  | 't' :: rest => some ('\t', rest)
  | '"' :: rest => some ('"', rest)
  | '\\' :: rest => some ('\\', rest)
  | 'u' :: rest => readCode 4 rest
  | 'U' :: rest => readCode 8 rest
  | _ => none
where
  /-- A code point of a given number of hexadecimal digits. -/
  readCode (count : Nat) (chars : List Char) : Option (Char × List Char) := do
    let digits := chars.take count
    if digits.length < count then none
    let code ← natural? 16 digits
    if h : code.isValidChar then some (Char.ofNatAux code h, chars.drop count) else none

/-- The end of a string of several lines: the three quotes that close it may have one or two of
their kind in front, which belong to the string. -/
def readClose? (quote : Char) (chars : List Char) : Option (List Char × List Char) :=
  let quotes := (chars.take 5).takeWhile (· == quote)
  if quotes.length < 3 then none else some (quotes.drop 3, chars.drop quotes.length)

/-- Drops a backslash at the end of a line with all blank space behind it. -/
def dropContinuation? (chars : List Char) : Option (List Char) :=
  (dropLineEnd? (dropSpaces chars)).map fun rest =>
    rest.dropWhile fun c => isSpace c || c == '\n' || c == '\r'

/-- Reads a string of one line behind its first quote. `escapes` says whether a backslash starts
an escape. -/
def readLine (quote : Char) (escapes : Bool) : Nat → List Char → Option (List Char × List Char)
  | 0, _ => none
  | fuel + 1, chars =>
    match chars with
    | [] => none
    | c :: rest =>
      if c == quote then some ([], rest)
      else if escapes && c == '\\' then do
        let (c, rest) ← readEscape rest
        let (text, rest) ← readLine quote escapes fuel rest
        some (c :: text, rest)
      else if isCommentChar c then do
        let (text, rest) ← readLine quote escapes fuel rest
        some (c :: text, rest)
      else none

/-- Reads a string of several lines behind its three quotes. -/
def readLines (quote : Char) (escapes : Bool) : Nat → List Char → Option (List Char × List Char)
  | 0, _ => none
  | fuel + 1, chars =>
    match readClose? quote chars with
    | some closed => some closed
    | none =>
      match dropLineEnd? chars, chars with
      | some rest, _ => do
        let (text, rest) ← readLines quote escapes fuel rest
        some ('\n' :: text, rest)
      | none, [] => none
      | none, c :: rest =>
        if escapes && c == '\\' then
          match dropContinuation? rest with
          | some rest => readLines quote escapes fuel rest
          | none => do
            let (c, rest) ← readEscape rest
            let (text, rest) ← readLines quote escapes fuel rest
            some (c :: text, rest)
        else if isCommentChar c then do
          let (text, rest) ← readLines quote escapes fuel rest
          some (c :: text, rest)
        else none

/-- The line end behind the three quotes that open a string does not belong to it. -/
def dropFirstLineEnd (chars : List Char) : List Char := (dropLineEnd? chars).getD chars

/-- **Reads a string**, at its first quote. -/
def readString (chars : List Char) : Option (String × List Char) := do
  let fuel := chars.length + 1
  let (text, rest) ← match chars with
    | '"' :: '"' :: '"' :: rest => readLines '"' true fuel (dropFirstLineEnd rest)
    | '\x27' :: '\x27' :: '\x27' :: rest => readLines '\x27' false fuel (dropFirstLineEnd rest)
    | '"' :: rest => readLine '"' true fuel rest
    | '\x27' :: rest => readLine '\x27' false fuel rest
    | _ => none
  some (String.ofList text, rest)

/-! ## Keys -/

/-- Reads a key that is a single name. -/
def readName (chars : List Char) : Option (String × List Char) :=
  let fuel := chars.length + 1
  match chars with
  | '"' :: rest => (readLine '"' true fuel rest).map fun (text, rest) => (String.ofList text, rest)
  | '\x27' :: rest =>
    (readLine '\x27' false fuel rest).map fun (text, rest) => (String.ofList text, rest)
  | chars =>
    let name := chars.takeWhile isKeyChar
    if name.isEmpty then none else some (String.ofList name, chars.drop name.length)

/-- Reads names with points between them, and the spaces around each. -/
def readNames : Nat → List Char → Option (List String × List Char)
  | 0, _ => none
  | fuel + 1, chars => do
    let (name, rest) ← readName (dropSpaces chars)
    match dropSpaces rest with
    | '.' :: rest =>
      let (names, rest) ← readNames fuel rest
      some (name :: names, rest)
    | rest => some ([name], rest)

/-- **Reads a key.** -/
def readKey (chars : List Char) : Option (List String × List Char) :=
  readNames (chars.length + 1) chars

/-! ## Numbers -/

/-- The digits of a base with single underscores between them, the underscores left out. -/
def readDigits (base : Nat) : List Char → List Char × List Char
  | [] => ([], [])
  | '_' :: c :: rest =>
    if (digitValue? base c).isSome then
      let (digits, rest) := readDigits base rest
      (c :: digits, rest)
    else ([], '_' :: c :: rest)
  | c :: rest =>
    if (digitValue? base c).isSome then
      let (digits, rest) := readDigits base rest
      (c :: digits, rest)
    else ([], c :: rest)

/-- One digit or more of a base. -/
def readNumber (base : Nat) (chars : List Char) : Option (List Char × List Char) :=
  if chars.head? == some '_' then none
  else
    let (digits, rest) := readDigits base chars
    if digits.isEmpty then none else some (digits, rest)

/-- The digits of a decimal number in front of its point: a zero stands there only alone. -/
def readWhole (chars : List Char) : Option (List Char × List Char) :=
  match chars with
  | '0' :: rest => some (['0'], rest)
  | chars => readNumber 10 chars

/-- A sign, if there is one. -/
def readSign : List Char → List Char × List Char
  | '+' :: rest => ([], rest)
  | '-' :: rest => (['-'], rest)
  | rest => ([], rest)

/-- An exponent. -/
def readExponent (chars : List Char) : Option (List Char × List Char) :=
  match chars with
  | c :: rest =>
    if c == 'e' || c == 'E' then do
      let (sign, rest) := readSign rest
      let (digits, rest) ← readNumber 10 rest
      some ('e' :: sign ++ digits, rest)
    else none
  | [] => none

/-- **Reads a number with a point or an exponent.** One that exceeds every finite number is
refused when it is positive. -/
def readFloat (chars : List Char) : Option (Binary64 × List Char) := do
  let (sign, rest) := readSign chars
  match rest with
  | 'i' :: 'n' :: 'f' :: rest =>
    some (if sign.isEmpty then .infinity else Binary64.infinity.neg, rest)
  | 'n' :: 'a' :: 'n' :: rest => some (if sign.isEmpty then .nan else Binary64.nan.neg, rest)
  | rest =>
    let (whole, rest) ← readWhole rest
    let (tail, rest) ← match rest with
      | '.' :: rest => do
        let (fraction, rest) ← readNumber 10 rest
        match readExponent rest with
        | some (exponent, rest) => some ('.' :: fraction ++ exponent, rest)
        | none => some ('.' :: fraction, rest)
      | rest => readExponent rest
    let value ← rounded? (sign ++ whole ++ tail)
    if value == .infinity then none else some (value, rest)

/-- **Reads a whole number** of 64 bits with a sign. -/
def readInteger (chars : List Char) : Option (Int × List Char) := do
  let based (base : Nat) (rest : List Char) : Option (Int × List Char) := do
    let (digits, rest) ← readNumber base rest
    let n ← natural? base digits
    if n < twoPow 63 then some ((n : Int), rest) else none
  match chars with
  | '0' :: 'x' :: rest => based 16 rest
  | '0' :: 'o' :: rest => based 8 rest
  | '0' :: 'b' :: rest => based 2 rest
  | chars =>
    let (sign, rest) := readSign chars
    let (digits, rest) ← readWhole rest
    let n ← natural? 10 digits
    let value : Int := if sign.isEmpty then n else -n
    if fitsSigned 64 value then some (value, rest) else none

/-! ## Moments in time -/

/-- Reads a number of exactly so many digits that lies in a range. -/
def readRange (count low high : Nat) (chars : List Char) : Option (Nat × List Char) := do
  let digits := chars.take count
  if digits.length < count then none
  let n ← natural? 10 digits
  if low ≤ n && n ≤ high then some (n, chars.drop count) else none

/-- How many days a month has. -/
def daysOf (year month : Nat) : Nat :=
  if month = 2 then if year % 4 = 0 && (year % 100 != 0 || year % 400 = 0) then 29 else 28
  else if month = 4 || month = 6 || month = 9 || month = 11 then 30
  else 31

/-- Drops a given character. -/
def dropChar? (c : Char) : List Char → Option (List Char)
  | first :: rest => if first == c then some rest else none
  | [] => none

/-- Drops a date. -/
def dropDate? (chars : List Char) : Option (List Char) := do
  let (year, rest) ← readRange 4 0 9999 chars
  let (month, rest) ← readRange 2 1 12 (← dropChar? '-' rest)
  let (_, rest) ← readRange 2 1 (daysOf year month) (← dropChar? '-' rest)
  some rest

/-- Drops a time of day, with the fraction of a second. -/
def dropTime? (chars : List Char) : Option (List Char) := do
  let (_, rest) ← readRange 2 0 23 chars
  let (_, rest) ← readRange 2 0 59 (← dropChar? ':' rest)
  let (_, rest) ← readRange 2 0 60 (← dropChar? ':' rest)
  match rest with
  | '.' :: fraction =>
    let digits := fraction.takeWhile Char.isDigit
    if digits.isEmpty then some rest else some (fraction.drop digits.length)
  | rest => some rest

/-- Drops the distance from universal time, if there is one. -/
def dropOffset : List Char → List Char
  | 'Z' :: rest | 'z' :: rest => rest
  | chars@(c :: rest) =>
    if c == '+' || c == '-' then
      let zone := do
        let (_, rest) ← readRange 2 0 23 rest
        let (_, rest) ← readRange 2 0 59 (← dropChar? ':' rest)
        some rest
      zone.getD chars
    else chars
  | [] => []

/-- Drops a moment: a date, a time of day, or both. -/
def dropMoment? (chars : List Char) : Option (List Char) :=
  match dropDate? chars with
  | none => dropTime? chars
  | some rest =>
    match rest with
    | c :: time =>
      if c == 'T' || c == 't' || c == ' ' then
        match dropTime? time with
        | some rest => some (dropOffset rest)
        | none => some rest
      else some rest
    | [] => some []

/-- **Reads a moment** as it is written. -/
def readMoment (chars : List Char) : Option (String × List Char) :=
  (dropMoment? chars).map fun rest =>
    (String.ofList (chars.take (chars.length - rest.length)), rest)

end Rulebook.Toml
