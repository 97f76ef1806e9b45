/-!
# UTF-8

Bytes become text in two ways. A **strict** reader, `decode?`, accepts well-formed UTF-8 only. A
**lenient** one, `decodeLenient`, puts the replacement character U+FFFD in the place of every
malformed stretch, where a stretch is the longest beginning of a well-formed sequence that the
bytes offer, or a single byte that begins none.

Both read the same division of the bytes, `units`: a list that holds a character for every
well-formed sequence and a gap for every malformed stretch.
-/

namespace Rulebook.Text

/-- The bytes of a text. -/
def encodeList (chars : List Char) : List UInt8 := chars.flatMap String.utf8EncodeChar

/-- The bytes of a text. -/
def encode (text : String) : List UInt8 := encodeList text.toList

namespace Utf8

/-- Whether a byte continues a sequence. -/
def isContinuation (b : UInt8) : Bool := 0x80 ≤ b && b ≤ 0xBF

/-- The six low bits of a continuation byte. -/
def low (b : UInt8) : Nat := b.toNat % 64

/-- Whether a second byte may follow this first byte of three: a shorter form and the surrogates
are excluded. -/
def secondOfThree (first second : UInt8) : Bool :=
  if first == 0xE0 then 0xA0 ≤ second && second ≤ 0xBF
  else if first == 0xED then 0x80 ≤ second && second ≤ 0x9F
  else isContinuation second

/-- Whether a second byte may follow this first byte of four: a shorter form and what lies beyond
the last code point are excluded. -/
def secondOfFour (first second : UInt8) : Bool :=
  if first == 0xF0 then 0x90 ≤ second && second ≤ 0xBF
  else if first == 0xF4 then 0x80 ≤ second && second ≤ 0x8F
  else isContinuation second

end Utf8

open Utf8 in
/-- **The division of bytes** into characters and malformed stretches. -/
def units (bytes : List UInt8) : List (Option Char) :=
  match bytes with
  | [] => []
  | a :: rest =>
    if a < 0x80 then some (Char.ofNat a.toNat) :: units rest
    else if 0xC2 ≤ a && a ≤ 0xDF then
      match rest with
      | [] => [none]
      | b :: rest' =>
        if isContinuation b then some (Char.ofNat (a.toNat % 32 * 64 + low b)) :: units rest'
        else none :: units (b :: rest')
    else if 0xE0 ≤ a && a ≤ 0xEF then
      match rest with
      | [] => [none]
      | b :: rest' =>
        if secondOfThree a b then
          match rest' with
          | [] => [none]
          | c :: rest'' =>
            if isContinuation c then
              some (Char.ofNat (a.toNat % 16 * 4096 + low b * 64 + low c)) :: units rest''
            else none :: units (c :: rest'')
        else none :: units (b :: rest')
    else if 0xF0 ≤ a && a ≤ 0xF4 then
      match rest with
      | [] => [none]
      | b :: rest' =>
        if secondOfFour a b then
          match rest' with
          | [] => [none]
          | c :: rest'' =>
            if isContinuation c then
              match rest'' with
              | [] => [none]
              | d :: rest''' =>
                if isContinuation d then
                  some (Char.ofNat (a.toNat % 8 * 262144 + low b * 4096 + low c * 64 + low d))
                    :: units rest'''
                else none :: units (d :: rest''')
            else none :: units (c :: rest'')
        else none :: units (b :: rest')
    else none :: units rest
termination_by bytes.length

/-- The text of well-formed bytes. -/
def decodeList? (bytes : List UInt8) : Option (List Char) := (units bytes).mapM id

/-- **The text of well-formed bytes**, if they are. -/
def decode? (bytes : List UInt8) : Option String := (decodeList? bytes).map String.ofList

/-- **The text of any bytes**, with U+FFFD for every malformed stretch. -/
def decodeLenient (bytes : List UInt8) : String :=
  String.ofList ((units bytes).map fun unit => unit.getD '\uFFFD')

end Rulebook.Text
