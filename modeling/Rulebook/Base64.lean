/-!
# Base64

Bytes are written as symbols of an alphabet of sixty-four, four symbols for three bytes, the last
four filled up with the padding `=`. Reading accepts exactly what writing produces: the padding
must be complete, and the bits that the last symbol has to spare must be zero.

A text that is refused is refused for its first fault, with one exception: where a single byte is
left over behind the groups of four and is no symbol, it is reported before any other.
-/

namespace Rulebook.Base64

/-- The byte that pads. -/
def padding : UInt8 := 61

/-- **The value of a symbol.** -/
def symbolValue? (b : UInt8) : Option Nat :=
  let n := b.toNat
  if 65 ≤ n && n ≤ 90 then some (n - 65)
  else if 97 ≤ n && n ≤ 122 then some (n - 71)
  else if 48 ≤ n && n ≤ 57 then some (n + 4)
  else if n = 43 then some 62
  else if n = 47 then some 63
  else none

/-- **The symbol with a value** below sixty-four. -/
def symbolOf (value : Nat) : UInt8 :=
  if value < 26 then UInt8.ofNat (value + 65)
  else if value < 52 then UInt8.ofNat (value + 71)
  else if value < 62 then UInt8.ofNat (value - 4)
  else if value = 62 then 43
  else 47

/-- **Why bytes are no base64.** -/
inductive Flaw where
  /-- A byte that may not stand where it stands. -/
  | symbol (byte : UInt8) (offset : Nat)
  /-- A single symbol is left over. -/
  | length (count : Nat)
  /-- The last symbol has spare bits that are not zero. -/
  | lastSymbol (byte : UInt8) (offset : Nat)
  /-- The padding is missing or incomplete. -/
  | padding
deriving DecidableEq, Repr

/-- The words for a flaw. -/
def Flaw.message : Flaw → String
  | .symbol byte offset =>
    "Invalid symbol " ++ toString byte.toNat ++ ", offset " ++ toString offset ++ "."
  | .length count => "Invalid input length: " ++ toString count
  | .lastSymbol byte offset =>
    "Invalid last symbol " ++ toString byte.toNat ++ ", offset " ++ toString offset ++ "."
  | .padding => "Invalid padding"

/-! ## Writing -/

/-- The four symbols of three bytes. -/
def groupOf (a b c : UInt8) : List UInt8 :=
  let n := (a.toNat * 256 + b.toNat) * 256 + c.toNat
  [symbolOf (n / 262144), symbolOf (n / 4096 % 64), symbolOf (n / 64 % 64), symbolOf (n % 64)]

/-- **Writes bytes.** -/
def encode : List UInt8 → List UInt8
  | [] => []
  | [a] => (groupOf a 0 0).take 2 ++ [padding, padding]
  | [a, b] => (groupOf a b 0).take 3 ++ [padding]
  | a :: b :: c :: rest => groupOf a b c ++ encode rest

/-! ## Reading -/

/-- The value of the byte at an offset, which must be a symbol. -/
def readSymbol (offset : Nat) (byte : UInt8) : Except Flaw Nat :=
  match symbolValue? byte with
  | some value => pure value
  | none => throw (.symbol byte offset)

/-- The three bytes of four values. -/
def bytesOf (a b c d : Nat) : List UInt8 :=
  [UInt8.ofNat (a * 4 + b / 16), UInt8.ofNat (b % 16 * 16 + c / 4), UInt8.ofNat (c % 4 * 64 + d)]

/-- Reads whole groups, none of which is the last. -/
def readGroups : Nat → List UInt8 → Except Flaw (List UInt8)
  | offset, a :: b :: c :: d :: rest => do
    let x ← readSymbol offset a
    let y ← readSymbol (offset + 1) b
    let z ← readSymbol (offset + 2) c
    let w ← readSymbol (offset + 3) d
    let more ← readGroups (offset + 4) rest
    pure (bytesOf x y z w ++ more)
  | _, _ => pure []

/-- The values of symbols. -/
def readSymbols : Nat → List UInt8 → Except Flaw (List Nat)
  | _, [] => pure []
  | offset, byte :: rest => do
    let value ← readSymbol offset byte
    let more ← readSymbols (offset + 1) rest
    pure (value :: more)

/-- Reads the last group, which may be padded. -/
def readLast (offset : Nat) (bytes : List UInt8) : Except Flaw (List UInt8) := do
  let symbols := bytes.takeWhile (· != padding)
  let pads := bytes.drop symbols.length
  let values ← readSymbols offset symbols
  if !pads.isEmpty && (values.length < 2 || pads.any (· != padding)) then
    throw (.symbol padding (offset + values.length))
  if pads.isEmpty && values.length = 1 then throw (.length (offset + 1))
  if bytes.length % 4 != 0 then throw .padding
  let last := Flaw.lastSymbol (symbols.getLast?.getD 0) (offset + values.length - 1)
  match values with
  | [x, y] => if y % 16 = 0 then pure ((bytesOf x y 0 0).take 1) else throw last
  | [x, y, z] => if z % 4 = 0 then pure ((bytesOf x y z 0).take 2) else throw last
  | [x, y, z, w] => pure (bytesOf x y z w)
  | _ => pure []

/-- The number of bytes in front of the last group. -/
def bodyLength (length : Nat) : Nat :=
  if length % 4 = 0 then length - 4 else length - length % 4

/-- **Reads bytes.** -/
def decode (bytes : List UInt8) : Except Flaw (List UInt8) := do
  let last := bytes.getLast?.getD padding
  if bytes.length % 4 = 1 && last != padding && (symbolValue? last).isNone then
    throw (.symbol last (bytes.length - 1))
  let body := bodyLength bytes.length
  let front ← readGroups 0 (bytes.take body)
  let back ← readLast body (bytes.drop body)
  pure (front ++ back)

end Rulebook.Base64
