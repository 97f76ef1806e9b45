import Rulebook.Text.Printable

/-!
# Texts in quotes

A message that names a text it found shows it **in quotes**: the quote, the backslash and the
usual controls by their short escapes, and every character that cannot be seen by itself –
unprintable or combining – by its code point in braces.
-/

namespace Rulebook.Text

/-- A code point in braces, without leading zeros. -/
def escapeCode (c : Char) : List Char :=
  ['\\', 'u', '\x7b'] ++ Nat.toDigits 16 c.toNat ++ ['\x7d']

/-- A character as it stands between quotes of the given kind. -/
def escapeQuoted (quote c : Char) : List Char :=
  if c == '\x00' then ['\\', '0']
  else if c == '\t' then ['\\', 't']
  else if c == '\r' then ['\\', 'r']
  else if c == '\n' then ['\\', 'n']
  else if c == quote || c == '\\' then ['\\', c]
  else if isCombining c || isUnprintable c then escapeCode c
  else [c]

/-- **A text in double quotes.** -/
def quoted (text : String) : String :=
  String.ofList ('"' :: text.toList.flatMap (escapeQuoted '"') ++ ['"'])

/-- **A character in single quotes.** -/
def quotedChar (c : Char) : String := String.ofList ('\x27' :: escapeQuoted '\x27' c ++ ['\x27'])

end Rulebook.Text
