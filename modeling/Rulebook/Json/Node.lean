import Rulebook.Decimal.Number
import Rulebook.Json.Flaw
import Rulebook.Text.Utf8

/-!
# The structure of a JSON text

A JSON text is read into a tree that goes as far as the text is well-formed. Where it breaks off,
the tree says why; a reader of the tree meets the flaw when it comes to that place and not before.

Values that nobody asks for are passed over by a more generous rule: a number of any size and a
string with any escapes will do, and a few flaws are worded differently. So a break has two flaws,
one for a value that is **read** and one for a value that is **skipped**; a string or number that
can be skipped but not read carries its flaw with it.
-/

namespace Rulebook.Json

open Rulebook.Decimal (Binary64 Number twoPow)

/-- **Why a text breaks off**, for a value that is read and for one that is skipped. -/
structure Break where
  /-- The flaw when the value is read. -/
  read : Flaw
  /-- The flaw when the value is skipped. -/
  skip : Flaw
deriving DecidableEq, Repr

/-- A break that reads and skips alike. -/
def Break.both (flaw : Flaw) : Break := ⟨flaw, flaw⟩

/-- **A value of a JSON text.** -/
inductive Node where
  /-- The literal `null`. -/
  | null
  /-- `true` or `false`. -/
  | flag (value : Bool)
  /-- A number, if it can be read. -/
  | number (value : Except Flaw Number)
  /-- A string, if it can be read. -/
  | text (value : Except Flaw String)
  /-- A list, and why it breaks off if it does. -/
  | list (items : List Node) (ending : Option Break)
  /-- An object, and why it breaks off if it does. -/
  | object (members : List (Node × Node)) (ending : Option Break)
  /-- There is no value here. -/
  | broken (break_ : Break)
deriving Inhabited

namespace Node

/-! ## Strings -/

/-- One piece of a string. -/
inductive Piece where
  /-- A byte that stands for itself. -/
  | byte (value : UInt8)
  /-- An escape by a code of four hexadecimal digits. -/
  | code (value : Nat)
deriving DecidableEq, Repr

/-- How a string ends. -/
inductive Closing where
  /-- With its quote; what follows. -/
  | closed (rest : List UInt8)
  /-- With a flaw. The text may break off behind the mark of a code. -/
  | flawed (flaw : Flaw) (inCode : Bool)
deriving DecidableEq, Repr

/-- The value of a hexadecimal digit. -/
def hexValue? (b : UInt8) : Option Nat :=
  if 48 ≤ b && b ≤ 57 then some (b.toNat - 48)
  else if 97 ≤ b && b ≤ 102 then some (b.toNat - 87)
  else if 65 ≤ b && b ≤ 70 then some (b.toNat - 55)
  else none

/-- The number that four hexadecimal digits spell. -/
def code? (a b c d : UInt8) : Option Nat := do
  return (((← hexValue? a) * 16 + (← hexValue? b)) * 16 + (← hexValue? c)) * 16 + (← hexValue? d)

/-- The byte that a one-letter escape stands for. -/
def simpleEscape? (letter : UInt8) : Option UInt8 :=
  if letter == 34 then some 34
  else if letter == 92 then some 92
  else if letter == 47 then some 47
  else if letter == 98 then some 8
  else if letter == 102 then some 12
  else if letter == 110 then some 10
  else if letter == 114 then some 13
  else if letter == 116 then some 9
  else none

/-- **The pieces of a string** behind its opening quote. -/
def pieces : List UInt8 → List Piece × Closing
  | [] => ([], .flawed .endInString false)
  | 34 :: rest => ([], .closed rest)
  | [92] => ([], .flawed .endInString false)
  | 92 :: 117 :: a :: b :: c :: d :: rest =>
    match code? a b c d with
    | none => ([], .flawed .invalidEscape true)
    | some code =>
      let (following, closing) := pieces rest
      (.code code :: following, closing)
  | 92 :: letter :: rest =>
    if letter == 117 then ([], .flawed .endInString true)
    else
      match simpleEscape? letter with
      | none => ([], .flawed .invalidEscape false)
      | some byte =>
        let (following, closing) := pieces rest
        (.byte byte :: following, closing)
  | byte :: rest =>
    if byte < 32 then ([], .flawed .controlCharacter false)
    else
      let (following, closing) := pieces rest
      (.byte byte :: following, closing)

/-- Whether a code is the first half of a pair. -/
def isLeading (code : Nat) : Bool := 0xD800 ≤ code && code ≤ 0xDBFF

/-- Whether a code is the second half of a pair. -/
def isTrailing (code : Nat) : Bool := 0xDC00 ≤ code && code ≤ 0xDFFF

/-- The flaw of a leading half that ends the pieces. -/
def flawBehindLeading : Closing → Flaw
  | .flawed .endInString _ => .endInString
  | .flawed flaw true => flaw
  | _ => .endOfHexEscape

/-- **The bytes that pieces stand for.** Codes that are halves must come in pairs. -/
def joinPieces (closing : Closing) : List Piece → Except Flaw (List UInt8)
  | [] =>
    match closing with
    | .closed _ => pure []
    | .flawed flaw _ => throw flaw
  | .byte value :: rest => return value :: (← joinPieces closing rest)
  | .code leading :: rest =>
    if isTrailing leading then throw .loneSurrogate
    else if isLeading leading then
      match rest with
      | .code trailing :: rest =>
        if isTrailing trailing then
          let code := 0x10000 + (leading - 0xD800) * 0x400 + (trailing - 0xDC00)
          return String.utf8EncodeChar (Char.ofNat code) ++ (← joinPieces closing rest)
        else throw .loneSurrogate
      | [] => throw (flawBehindLeading closing)
      | .byte _ :: _ => throw .endOfHexEscape
    else return String.utf8EncodeChar (Char.ofNat leading) ++ (← joinPieces closing rest)

/-- The text of pieces. -/
def textOf (pieces : List Piece) (closing : Closing) : Except Flaw String := do
  match Text.decode? (← joinPieces closing pieces) with
  | some decoded => pure decoded
  | none => throw .invalidText

/-- A string behind its opening quote, and what follows it. -/
def parseString (bytes : List UInt8) : Node × Option (List UInt8) :=
  let (pieces, closing) := pieces bytes
  match closing with
  | .closed rest => (.text (textOf pieces closing), some rest)
  | .flawed flaw _ =>
    let read := match joinPieces closing pieces with
      | .error flaw => flaw
      | .ok _ => flaw
    (.broken ⟨read, flaw⟩, none)

/-! ## Numbers -/

/-- Whether a byte is a decimal digit. -/
def isDigit (b : UInt8) : Bool := 48 ≤ b && b ≤ 57

/-- The value of a decimal digit. -/
def digitValue (b : UInt8) : Nat := b.toNat - 48

/-- The greatest number that is kept digit by digit. -/
def maxSignificand : Nat := twoPow 64 - 1

/-- **The digits of a number that are kept**: while they fit into 64 bits. The answer has the
number they form and how many digits were kept. -/
def keptDigits : List UInt8 → Nat → Nat → Nat × Nat
  | [], significand, count => (significand, count)
  | b :: rest, significand, count =>
    let next := significand * 10 + digitValue b
    if maxSignificand < next then (significand, count) else keptDigits rest next (count + 1)

/-- Scales a number by a power of ten, in steps that a binary64 can hold, rounding each time. -/
def scale : Nat → Binary64 → Int → Option Binary64
  | 0, value, _ => some value
  | fuel + 1, value, exponent =>
    if exponent.natAbs ≤ 308 then
      let power := Binary64.ofDecimal 1 exponent.natAbs
      if 0 ≤ exponent then
        let product := value.mulMagnitude power
        if product.isFinite then some product else none
      else some (value.divMagnitude power)
    else if value.magnitude.1 == 0 then some value
    else if 0 ≤ exponent then none
    else scale fuel (value.divMagnitude (Binary64.ofDecimal 1 308)) (exponent + 308)

/-- The greatest exponent that is read. -/
def maxExponent : Nat := twoPow 31 - 1

/-- A number that is not whole: its digits before and behind the point, and its exponent. -/
def floating (negative : Bool) (whole fraction : List UInt8)
    (exponent : Option (Bool × List UInt8)) :
    Except Flaw Number := do
  let sign (value : Binary64) : Number := .float (if negative then value.neg else value)
  let (significand, wholeKept) := keptDigits whole 0 0
  let dropped := whole.length - wholeKept
  let (significand, fractionKept) := keptDigits fraction significand 0
  let shift : Int := (dropped : Int) - fractionKept
  let (negativeExponent, size) := match exponent with
    | none => (false, 0)
    | some (negative, digits) => (negative, digits.foldl (fun n b => n * 10 + digitValue b) 0)
  if maxExponent < size then
    if significand != 0 && !negativeExponent then throw .numberOutOfRange else pure (sign .zero)
  else
    match scale 8 (Binary64.ofRatio significand 1)
        (if negativeExponent then shift - size else shift + size) with
    | some value => pure (sign value)
    | none => throw .numberOutOfRange

/-- A number without point and exponent. Zero with a minus sign and whole numbers that no 64 bits
hold are not kept as whole numbers. -/
def whole (negative : Bool) (digits : List UInt8) : Except Flaw Number :=
  let n := digits.foldl (fun n b => n * 10 + digitValue b) 0
  if negative then
    if n != 0 && n ≤ twoPow 63 then pure (.integer (-(n : Int))) else floating true digits [] none
  else if n ≤ maxSignificand then pure (.integer n)
  else floating false digits [] none

/-- The exponent of a number behind its letter: its sign and digits, and what follows. -/
def exponentPart (bytes : List UInt8) : Except Break ((Bool × List UInt8) × List UInt8) :=
  let (negative, bytes) := match bytes with
    | 43 :: rest => (false, rest)
    | 45 :: rest => (true, rest)
    | rest => (false, rest)
  let digits := bytes.takeWhile isDigit
  if digits.isEmpty then
    throw ⟨if bytes.isEmpty then .endInValue else .invalidNumber, .invalidNumber⟩
  else pure ((negative, digits), bytes.drop digits.length)

/-- The parts of a number behind its whole digits. -/
def fractionPart (bytes : List UInt8) :
    Except Break (Option (List UInt8) × Option (Bool × List UInt8) × List UInt8) := do
  let (fraction, bytes) ← match bytes with
    | 46 :: rest =>
      let digits := rest.takeWhile isDigit
      let rest := rest.drop digits.length
      if digits.isEmpty then
        throw ⟨if rest.isEmpty then .endInValue else .invalidNumber, .invalidNumber⟩
      else pure (some digits, rest)
    | rest => pure (none, rest)
  match bytes with
  | letter :: rest =>
    if letter == 101 || letter == 69 then
      let (exponent, rest) ← exponentPart rest
      pure (fraction, some exponent, rest)
    else pure (fraction, none, bytes)
  | [] => pure (fraction, none, bytes)

/-- The whole digits of a number: a zero alone, or digits that start with no zero. -/
def wholePart (bytes : List UInt8) : Except Break (List UInt8 × List UInt8) :=
  match bytes with
  | [] => throw ⟨.endInValue, .invalidNumber⟩
  | first :: rest =>
    if first == 48 then
      if rest.head?.any isDigit then throw (.both .invalidNumber) else pure ([first], rest)
    else if isDigit first then
      let digits := bytes.takeWhile isDigit
      pure (digits, bytes.drop digits.length)
    else throw (.both .invalidNumber)

/-- A number from its sign or first digit on, and what follows it. -/
def parseNumber (bytes : List UInt8) : Node × Option (List UInt8) :=
  let (negative, bytes) := match bytes with
    | 45 :: rest => (true, rest)
    | rest => (false, rest)
  let parts : Except Break (Node × List UInt8) := do
    let (digits, bytes) ← wholePart bytes
    let (fraction, exponent, rest) ← fractionPart bytes
    let value := match fraction, exponent with
      | none, none => whole negative digits
      | fraction, exponent => floating negative digits (fraction.getD []) exponent
    pure (Node.number value, rest)
  match parts with
  | .ok (node, rest) => (node, some rest)
  | .error break_ => (.broken break_, none)

/-! ## Values -/

/-- Space, line feed, carriage return and tab. -/
def isSpace (b : UInt8) : Bool := b == 32 || b == 10 || b == 13 || b == 9

/-- Moves over white space. -/
def dropSpace (bytes : List UInt8) : List UInt8 := bytes.dropWhile isSpace

/-- The rest of a literal. -/
def parseLiteral (node : Node) : List UInt8 → List UInt8 → Node × Option (List UInt8)
  | [], rest => (node, some rest)
  | _ :: _, [] => (.broken (.both .endInValue), none)
  | expected :: more, b :: rest =>
    if b == expected then parseLiteral node more rest else (.broken (.both .expectedLiteral), none)

mutual

/-- **A value** and what follows it; nothing follows where the text breaks off. The fuel exceeds
the number of bytes. -/
def parseValue : Nat → List UInt8 → Node × Option (List UInt8)
  | 0, _ => (.broken (.both .endInValue), none)
  | fuel + 1, bytes =>
    match dropSpace bytes with
    | [] => (.broken (.both .endInValue), none)
    | first :: rest =>
      if first == 110 then parseLiteral .null [117, 108, 108] rest
      else if first == 116 then parseLiteral (.flag true) [114, 117, 101] rest
      else if first == 102 then parseLiteral (.flag false) [97, 108, 115, 101] rest
      else if first == 34 then parseString rest
      else if first == 45 || isDigit first then parseNumber (first :: rest)
      else if first == 91 then
        let (found, ending, rest) := parseItems fuel true rest
        (.list found ending, rest)
      else if first == 123 then
        let (found, ending, rest) := parseMembers fuel true rest
        (.object found ending, rest)
      else (.broken (.both .expectedValue), none)

/-- The items of a list and what follows its end. -/
def parseItems : Nat → Bool → List UInt8 → List Node × Option Break × Option (List UInt8)
  | 0, _, _ => ([], some (.both .endInList), none)
  | fuel + 1, first, bytes =>
    match dropSpace bytes with
    | [] => ([], some (.both .endInList), none)
    | b :: rest =>
      if b == 93 then ([], none, some rest)
      else if first then parseItemThen fuel (b :: rest)
      else if b == 44 then
        match dropSpace rest with
        | [] => ([], some (.both .endInValue), none)
        | c :: rest =>
          if c == 93 then ([], some ⟨.trailingComma, .expectedValue⟩, none)
          else parseItemThen fuel (c :: rest)
      else ([], some (.both .expectedListSeparator), none)

/-- An item and those behind it. -/
def parseItemThen : Nat → List UInt8 → List Node × Option Break × Option (List UInt8)
  | 0, _ => ([], some (.both .endInList), none)
  | fuel + 1, bytes =>
    match parseValue fuel bytes with
    | (node, none) => ([node], none, none)
    | (node, some rest) =>
      let (found, ending, rest) := parseItems fuel false rest
      (node :: found, ending, rest)

/-- The entries of an object and what follows its end. -/
def parseMembers : Nat → Bool → List UInt8 → List (Node × Node) × Option Break × Option (List UInt8)
  | 0, _, _ => ([], some (.both .endInObject), none)
  | fuel + 1, first, bytes =>
    match dropSpace bytes with
    | [] => ([], some (.both .endInObject), none)
    | b :: rest =>
      if b == 125 then ([], none, some rest)
      else if first then parseMemberThen fuel (b :: rest)
      else if b == 44 then
        match dropSpace rest with
        | [] => ([], some ⟨.endInValue, .endInObject⟩, none)
        | c :: rest =>
          if c == 125 then ([], some ⟨.trailingComma, .keyNotString⟩, none)
          else parseMemberThen fuel (c :: rest)
      else ([], some (.both .expectedObjectSeparator), none)

/-- An entry and those behind it. Where the key is no string, what stands there is kept as the
value. -/
def parseMemberThen : Nat → List UInt8 → List (Node × Node) × Option Break × Option (List UInt8)
  | 0, _ => ([], some (.both .endInObject), none)
  | fuel + 1, bytes =>
    match bytes with
    | 34 :: rest =>
      match parseString rest with
      | (key, none) => ([(key, .broken (.both .endInString))], none, none)
      | (key, some rest) =>
        match dropSpace rest with
        | 58 :: rest =>
          match parseValue fuel rest with
          | (node, none) => ([(key, node)], none, none)
          | (node, some rest) =>
            let (found, ending, rest) := parseMembers fuel false rest
            ((key, node) :: found, ending, rest)
        | [] => ([(key, .broken (.both .endInObject))], none, none)
        | _ :: _ => ([(key, .broken (.both .expectedColon))], none, none)
    | _ => ([(.broken (.both .keyNotString), (parseValue fuel bytes).1)], none, none)

end

mutual

/-- **The flaw that is met when a value is skipped**, if there is one. -/
def skipFlaw? : Node → Option Flaw
  | .broken break_ => some break_.skip
  | .list items ending => itemsFlaw? items ending
  | .object members ending => membersFlaw? members ending
  | _ => none

/-- The first flaw among items or behind them. -/
def itemsFlaw? : List Node → Option Break → Option Flaw
  | [], ending => ending.map (·.skip)
  | node :: rest, ending =>
    match skipFlaw? node with
    | some flaw => some flaw
    | none => itemsFlaw? rest ending

/-- The first flaw among entries or behind them. -/
def membersFlaw? : List (Node × Node) → Option Break → Option Flaw
  | [], ending => ending.map (·.skip)
  | (key, node) :: rest, ending =>
    match skipFlaw? key with
    | some flaw => some flaw
    | none =>
      match skipFlaw? node with
      | some flaw => some flaw
      | none => membersFlaw? rest ending

end

/-- **The value of a text**, and what follows it; none where the text breaks off. -/
def ofBytes (bytes : List UInt8) : Node × Option (List UInt8) :=
  parseValue (2 * bytes.length + 2) bytes

end Node

end Rulebook.Json
