import Rulebook.Document.Data
import Rulebook.Text.Utf8

/-!
# MessagePack

The rules are served in MessagePack, a binary form of plain data. A value starts with a byte that
says what follows; lengths and numbers take the least number of bytes that holds them, highest byte
first. A whole number that is not negative is written without a sign.
-/

namespace Rulebook.MessagePack

open Rulebook.Decimal (twoPow)
open Rulebook.Document

/-- A number as a given number of bytes, highest first. -/
def bigEndian : Nat → Nat → List UInt8
  | 0, _ => []
  | width + 1, n => UInt8.ofNat (n / twoPow (8 * width)) :: bigEndian width n

/-- **A whole number** in its shortest form. -/
def encodeInteger (value : Int) : List UInt8 :=
  if 0 ≤ value then
    let n := value.toNat
    if n < 128 then [UInt8.ofNat n]
    else if n < twoPow 8 then 0xCC :: bigEndian 1 n
    else if n < twoPow 16 then 0xCD :: bigEndian 2 n
    else if n < twoPow 32 then 0xCE :: bigEndian 4 n
    else 0xCF :: bigEndian 8 n
  else if -32 ≤ value then [UInt8.ofNat (value + 256).toNat]
  else if -twoPow 7 ≤ value then 0xD0 :: bigEndian 1 (value + twoPow 8).toNat
  else if -twoPow 15 ≤ value then 0xD1 :: bigEndian 2 (value + twoPow 16).toNat
  else if -twoPow 31 ≤ value then 0xD2 :: bigEndian 4 (value + twoPow 32).toNat
  else 0xD3 :: bigEndian 8 (value + twoPow 64).toNat

/-- The beginning of a text of a given number of bytes. -/
def textHeader (size : Nat) : List UInt8 :=
  if size < 32 then [UInt8.ofNat (0xA0 + size)]
  else if size < twoPow 8 then 0xD9 :: bigEndian 1 size
  else if size < twoPow 16 then 0xDA :: bigEndian 2 size
  else 0xDB :: bigEndian 4 size

/-- **A text.** -/
def encodeText (text : String) : List UInt8 :=
  let bytes := Text.encode text
  textHeader bytes.length ++ bytes

/-- The beginning of a list of a given length. -/
def listHeader (size : Nat) : List UInt8 :=
  if size < 16 then [UInt8.ofNat (0x90 + size)]
  else if size < twoPow 16 then 0xDC :: bigEndian 2 size
  else 0xDD :: bigEndian 4 size

/-- The beginning of a table of a given length. -/
def tableHeader (size : Nat) : List UInt8 :=
  if size < 16 then [UInt8.ofNat (0x80 + size)]
  else if size < twoPow 16 then 0xDE :: bigEndian 2 size
  else 0xDF :: bigEndian 4 size

mutual

/-- **Plain data in MessagePack.** -/
def encode : Data → List UInt8
  | .null => [0xC0]
  | .flag false => [0xC2]
  | .flag true => [0xC3]
  | .integer value => encodeInteger value
  | .float value => 0xCB :: bigEndian 8 value.bits.toNat
  | .text value => encodeText value
  | .list items => listHeader items.length ++ encodeItems items
  | .table entries => tableHeader entries.length ++ encodeEntries entries

/-- The items of a list. -/
def encodeItems : List Data → List UInt8
  | [] => []
  | item :: rest => encode item ++ encodeItems rest

/-- The entries of a table. -/
def encodeEntries : List (String × Data) → List UInt8
  | [] => []
  | (key, value) :: rest => encodeText key ++ encode value ++ encodeEntries rest

end

end Rulebook.MessagePack
