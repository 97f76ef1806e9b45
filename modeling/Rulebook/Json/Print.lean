import Rulebook.Decimal.Notation
import Rulebook.Document.Data

/-!
# Writing JSON

Plain data is written as JSON in one of two layouts: **compact**, without any white space, and
**indented**, with every item on a line of its own, two spaces further in for each level. Both
write strings, numbers and literals alike, and keep the order of a table's entries.

In a string the quote and the backslash are escaped, and so are the controls below the space; five
of them have short escapes. Every other character stands for itself.
-/

namespace Rulebook.Json

open Rulebook.Document

/-- A character inside a string. -/
def escapeChar (c : Char) : List Char :=
  if c == '"' then ['\\', '"']
  else if c == '\\' then ['\\', '\\']
  else if c == '\x08' then ['\\', 'b']
  else if c == '\x0c' then ['\\', 'f']
  else if c == '\n' then ['\\', 'n']
  else if c == '\r' then ['\\', 'r']
  else if c == '\t' then ['\\', 't']
  else if c.toNat < 32 then
    ['\\', 'u', '0', '0', Nat.digitChar (c.toNat / 16), Nat.digitChar (c.toNat % 16)]
  else [c]

/-- A string with its quotes. -/
def stringChars (text : String) : List Char := '"' :: text.toList.flatMap escapeChar ++ ['"']

/-- A whole number. -/
def integerChars : Int → List Char
  | .ofNat n => Decimal.digitsOf n
  | .negSucc n => '-' :: Decimal.digitsOf (n + 1)

/-- A value without parts. -/
def scalarChars : Data → List Char
  | .null => ['n', 'u', 'l', 'l']
  | .flag true => ['t', 'r', 'u', 'e']
  | .flag false => ['f', 'a', 'l', 's', 'e']
  | .integer value => integerChars value
  | .float value => if value.isFinite then (value.text .json).toList else ['n', 'u', 'l', 'l']
  | .text value => stringChars value
  | .list _ | .table _ => []

mutual

/-- **The compact layout.** -/
def compactChars : Data → List Char
  | .list items => '[' :: compactItems items ++ [']']
  | .table entries => '\x7b' :: compactEntries entries ++ ['\x7d']
  | data => scalarChars data

/-- Items with commas between them. -/
def compactItems : List Data → List Char
  | [] => []
  | [item] => compactChars item
  | item :: rest => compactChars item ++ ',' :: compactItems rest

/-- Entries with commas between them. -/
def compactEntries : List (String × Data) → List Char
  | [] => []
  | [(key, value)] => stringChars key ++ ':' :: compactChars value
  | (key, value) :: rest =>
    stringChars key ++ ':' :: compactChars value ++ ',' :: compactEntries rest

end

/-- A new line at a level. -/
def newLine (level : Nat) : List Char := '\n' :: List.replicate (2 * level) ' '

mutual

/-- **The indented layout**, from a level on. -/
def indentedChars (level : Nat) : Data → List Char
  | .list [] => ['[', ']']
  | .list (item :: rest) =>
    '[' :: newLine (level + 1) ++ indentedChars (level + 1) item ++
      indentedItems (level + 1) rest ++ newLine level ++ [']']
  | .table [] => ['\x7b', '\x7d']
  | .table ((key, value) :: rest) =>
    '\x7b' :: newLine (level + 1) ++ stringChars key ++ [':', ' '] ++
      indentedChars (level + 1) value ++ indentedEntries (level + 1) rest ++ newLine level ++
      ['\x7d']
  | data => scalarChars data

/-- The items behind the first one. -/
def indentedItems (level : Nat) : List Data → List Char
  | [] => []
  | item :: rest => ',' :: newLine level ++ indentedChars level item ++ indentedItems level rest

/-- The entries behind the first one. -/
def indentedEntries (level : Nat) : List (String × Data) → List Char
  | [] => []
  | (key, value) :: rest =>
    ',' :: newLine level ++ stringChars key ++ [':', ' '] ++ indentedChars level value ++
      indentedEntries level rest

end

/-- **Compact JSON.** -/
def compact (data : Data) : String := String.ofList (compactChars data)

/-- **Indented JSON.** -/
def indented (data : Data) : String := String.ofList (indentedChars 0 data)

end Rulebook.Json
