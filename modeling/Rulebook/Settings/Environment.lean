import Rulebook.Decimal.Numeral
import Rulebook.Settings.Value
import Rulebook.Text.Blank

/-!
# Settings from the environment

A variable of the environment whose name starts with a given text, letters of either case being the
same, sets one thing: the rest of the name, cut at every double underscore or point, is the place,
and the value of the variable is the value. A name with an empty piece sets nothing. Where two
variables set the same thing, the later one prevails.

The value is written in a small language: truth values, numbers, texts in quotes, a character in
single quotes, lists in brackets, tables in braces; any other word is a text. A value that is not
well-formed in this language is a text as a whole, so every value means something.
-/

namespace Rulebook.Settings.Environment

open Rulebook.Decimal (rounded? integer64? digitValue? natural?)

/-! ## The language of values -/

/-- Whether a character is a space between the parts of a value. -/
def isSpace (c : Char) : Bool := c == ' ' || c == '\t' || c == '\n' || c == '\x0c' || c == '\r'

/-- Whether a character ends a word. -/
def isSeparator (c : Char) : Bool :=
  c == ',' || c == '\x7b' || c == '\x7d' || c == '[' || c == ']'

/-- Whether a character may stand in a key without quotes. -/
def isKeyChar (c : Char) : Bool := c.isAlphanum || c == '_' || c == '-'

/-- The character that an escape stands for, behind the backslash, and what follows it. -/
def readEscape : List Char → Option (Char × List Char)
  | 'b' :: rest => some ('\x08', rest)
  | 'f' :: rest => some ('\x0c', rest)
  | 'n' :: rest => some ('\n', rest)
  | 'r' :: rest => some ('\r', rest)
  | 't' :: rest => some ('\t', rest)
  | '"' :: rest => some ('"', rest)
  | '\\' :: rest => some ('\\', rest)
  | 'u' :: rest => readCode 4 rest
  | 'U' :: rest => readCode 8 rest
  | _ => none
where
  /-- A code point of a given number of hexadecimal digits. -/
  readCode (count : Nat) (chars : List Char) : Option (Char × List Char) := do
    let digits := chars.take count
    if digits.length < count then none
    let code ← natural? 16 digits
    if h : code.isValidChar then some (Char.ofNatAux code h, chars.drop count) else none

/-- Reads a text behind its first quote, with its escapes. -/
def readQuoted : Nat → List Char → Option (List Char × List Char)
  | 0, _ => none
  | fuel + 1, chars =>
    match chars with
    | [] => none
    | '"' :: rest => some ([], rest)
    | '\\' :: rest => do
      let (c, rest) ← readEscape rest
      let (text, rest) ← readQuoted fuel rest
      some (c :: text, rest)
    | c :: rest => do
      let (text, rest) ← readQuoted fuel rest
      some (c :: text, rest)

/-- The value of a word. -/
def wordValue (word : List Char) : Value :=
  match if word.contains '.' then rounded? word else none with
  | some value => .float value
  | none =>
    match integer64? word with
    | some value => if word.head? == some '-' then .signed value else .unsigned value.toNat
    | none => .text (String.ofList word)

/-- Reads a key. -/
def readKey (chars : List Char) : Option (String × List Char) :=
  match chars with
  | '"' :: rest => do
    let (text, rest) ← readQuoted (rest.length + 1) rest
    some (String.ofList text, rest)
  | chars =>
    let key := chars.takeWhile isKeyChar
    if key.isEmpty then none else some (String.ofList key, chars.drop key.length)

mutual

/-- Reads a value with the spaces around it. -/
def readValue : Nat → List Char → Option (Value × List Char)
  | 0, _ => none
  | fuel + 1, chars => do
    let (value, rest) ← match chars.dropWhile isSpace with
      | 't' :: 'r' :: 'u' :: 'e' :: rest => some (.flag true, rest)
      | 'f' :: 'a' :: 'l' :: 's' :: 'e' :: rest => some (.flag false, rest)
      | '\x7b' :: rest => do
        let (entries, rest) ← readEntries fuel rest []
        some (.table entries, rest)
      | '[' :: rest => do
        let (items, rest) ← readItems fuel rest
        some (.list items, rest)
      | '"' :: rest => do
        let (text, rest) ← readQuoted (rest.length + 1) rest
        some (.text (String.ofList text), rest)
      | '\x27' :: c :: '\x27' :: rest => some (.letter c, rest)
      | '\x27' :: _ => none
      | chars =>
        let word := chars.takeWhile fun c => !isSeparator c
        some (wordValue (Text.trimList Text.isBlank word), chars.drop word.length)
    some (value, rest.dropWhile isSpace)

/-- Reads the items of a list up to its end. A comma may stand behind the last one. -/
def readItems : Nat → List Char → Option (List Value × List Char)
  | 0, _ => none
  | fuel + 1, chars =>
    match chars with
    | ']' :: rest => some ([], rest)
    | chars => do
      let (item, rest) ← readValue fuel chars
      match rest with
      | ',' :: rest =>
        let (items, rest) ← readItems fuel rest
        some (item :: items, rest)
      | ']' :: rest => some ([item], rest)
      | _ => none

/-- Reads the entries of a table up to its end, adding them to those before. -/
def readEntries : Nat → List Char → List (String × Value) →
    Option (List (String × Value) × List Char)
  | 0, _, _ => none
  | fuel + 1, chars, done =>
    match chars with
    | '\x7d' :: rest => some (done, rest)
    | chars => do
      let (key, rest) ← readKey (chars.dropWhile isSpace)
      match rest.dropWhile isSpace with
      | '=' :: rest =>
        let (value, rest) ← readValue fuel rest
        let done := Table.place key value done
        match rest with
        | ',' :: rest => readEntries fuel rest done
        | '\x7d' :: rest => some (done, rest)
        | _ => none
      | _ => none

end

/-- **The value that a variable gives.** -/
def valueOf (written : String) : Value :=
  let chars := Text.trimList Text.isBlank written.toList
  match readValue (2 * chars.length + 2) chars with
  | some (value, []) => value
  | _ => .text (String.ofList chars)

/-! ## Names of variables -/

/-- What follows the beginning of a list, letters of either case being the same. -/
def dropStart? : List Char → List Char → Option (List Char)
  | [], rest => some rest
  | _ :: _, [] => none
  | a :: start, b :: rest => if a.toLower == b.toLower then dropStart? start rest else none

/-- The pieces of a name between double underscores and points. -/
def pieces : List Char → List (List Char)
  | '_' :: '_' :: rest => [] :: pieces rest
  | '.' :: rest => [] :: pieces rest
  | c :: rest =>
    match pieces rest with
    | piece :: more => (c :: piece) :: more
    | [] => [[c]]
  | [] => [[]]

/-- **The place that a variable sets**, if its name starts as asked for. -/
def place? (start name : String) : Option (List String) :=
  match dropStart? start.toList (Text.trim name).toList with
  | none => none
  | some rest =>
    let pieces := pieces (Text.trimList Text.isBlank (rest.map Char.toLower))
    if pieces.any (·.isEmpty) then none else some (pieces.map String.ofList)

/-- **What the variables set.** -/
def values (start : String) (environment : List (String × String)) : Value :=
  environment.foldl
    (fun below (name, written) =>
      match place? start name with
      | some place => Value.laidOver (.nested place (valueOf written)) below
      | none => below)
    .empty

end Rulebook.Settings.Environment
