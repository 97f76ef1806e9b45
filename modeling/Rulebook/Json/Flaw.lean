/-!
# Why a text is no JSON

The ways in which a text can fail to be JSON, and the words for each.
-/

namespace Rulebook.Json

/-- **A breach of the syntax of JSON.** -/
inductive Flaw where
  /-- The text ends inside a list. -/
  | endInList
  /-- The text ends inside an object. -/
  | endInObject
  /-- The text ends inside a string. -/
  | endInString
  /-- The text ends where a value is due or inside one. -/
  | endInValue
  /-- A colon is missing behind a key. -/
  | expectedColon
  /-- Neither a comma nor the end of the list follows an item. -/
  | expectedListSeparator
  /-- Neither a comma nor the end of the object follows an entry. -/
  | expectedObjectSeparator
  /-- A literal is misspelt. -/
  | expectedLiteral
  /-- No value begins here. -/
  | expectedValue
  /-- A backslash is followed by none of the escapes. -/
  | invalidEscape
  /-- A number is misspelt. -/
  | invalidNumber
  /-- A number is too large. -/
  | numberOutOfRange
  /-- A string is not well-formed UTF-8. -/
  | invalidText
  /-- A control character stands in a string. -/
  | controlCharacter
  /-- A key is no string. -/
  | keyNotString
  /-- A surrogate stands where none may. -/
  | loneSurrogate
  /-- A comma stands before the end of a list or object. -/
  | trailingComma
  /-- Something follows the value. -/
  | trailingCharacters
  /-- A leading surrogate is followed by no escape. -/
  | endOfHexEscape
deriving DecidableEq, Repr

/-- The words for a flaw. -/
def Flaw.message : Flaw → String
  | .endInList => "EOF while parsing a list"
  | .endInObject => "EOF while parsing an object"
  | .endInString => "EOF while parsing a string"
  | .endInValue => "EOF while parsing a value"
  | .expectedColon => "expected `:`"
  | .expectedListSeparator => "expected `,` or `]`"
  | .expectedObjectSeparator => "expected `,` or `\x7d`"
  | .expectedLiteral => "expected ident"
  | .expectedValue => "expected value"
  | .invalidEscape => "invalid escape"
  | .invalidNumber => "invalid number"
  | .numberOutOfRange => "number out of range"
  | .invalidText => "invalid unicode code point"
  | .controlCharacter => "control character (\\u0000-\\u001F) found while parsing a string"
  | .keyNotString => "key must be a string"
  | .loneSurrogate => "lone leading surrogate in hex escape"
  | .trailingComma => "trailing comma"
  | .trailingCharacters => "trailing characters"
  | .endOfHexEscape => "unexpected end of hex escape"

end Rulebook.Json
