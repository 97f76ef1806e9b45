import Rulebook.Decimal.Numeral
import Rulebook.Error
import Rulebook.Settings.Basic
import Rulebook.Text.Split

/-!
# Where the server listens

An **endpoint** is a numeric address of a host with a port. The setting gives it as text: an
address of version 4 as four numbers between points, one of version 6 in brackets as groups between
colons, then a colon and the port. A text that starts with the colon stands for every host.

What is no such text is cut at its last colon. What follows must be a port, with a plus sign if one
likes, and what precedes names a host. What the name stands for is not decided here: a **resolver**
is asked for it, and of the addresses that it answers with the first one is taken.

Some names are numeric themselves, an address of version 6 without brackets and the short and based
forms of version 4. They stand for what they say with a resolver that has a table of the other names
(`Resolver.ofTable`).
-/

namespace Rulebook.Settings

open Rulebook.Decimal (digitValue? natural? bounded? twoPow)

/-- **A numeric address of a host.** -/
inductive HostAddress where
  /-- Version 4: a number of 32 bits. -/
  | v4 (value : UInt32)
  /-- Version 6: eight groups of 16 bits, and the number of a zone. -/
  | v6 (groups : List UInt16) (zone : UInt32)
deriving DecidableEq, Repr

/-- **An address and a port.** -/
structure Endpoint where
  /-- The address. -/
  host : HostAddress
  /-- The port. -/
  port : UInt16
deriving DecidableEq, Repr

/-! ## Reading -/

/-- Reads digits of a base, as many as there are but at most `limit`, and what follows them. -/
def takeNumber (base limit : Nat) (chars : List Char) : Option (Nat × List Char) :=
  let digits := (chars.take limit).takeWhile fun c => (digitValue? base c).isSome
  (natural? base digits).map fun n => (n, chars.drop digits.length)

/-- Reads one of the four numbers of an address of version 4. A zero does not stand in front of
other digits. -/
def takeOctet (chars : List Char) : Option (Nat × List Char) := do
  let (n, rest) ← takeNumber 10 3 chars
  let follows := rest.head?.any Char.isDigit
  if 255 < n || follows || (chars.head? == some '0' && rest.length + 1 < chars.length) then none
  else some (n, rest)

/-- Reads a given character. -/
def takeChar (c : Char) : List Char → Option (List Char)
  | first :: rest => if first == c then some rest else none
  | [] => none

/-- Reads an address of version 4. -/
def takeFourth (chars : List Char) : Option (Nat × List Char) := do
  let (a, rest) ← takeOctet chars
  let (b, rest) ← takeOctet (← takeChar '.' rest)
  let (c, rest) ← takeOctet (← takeChar '.' rest)
  let (d, rest) ← takeOctet (← takeChar '.' rest)
  some (((a * 256 + b) * 256 + c) * 256 + d, rest)

/-- Reads at most `room` groups of an address of version 6, with colons between them; the last two
may be written as an address of version 4. The answer says whether they are. -/
def takeGroups (first : Bool) : Nat → List Char → List UInt16 × Bool × List Char
  | 0, chars => ([], false, chars)
  | room + 1, chars =>
    match if first then some chars else takeChar ':' chars with
    | none => ([], false, chars)
    | some inner =>
      match if room = 0 then none else takeFourth inner with
      | some (n, rest) => ([UInt16.ofNat (n / 65536), UInt16.ofNat (n % 65536)], true, rest)
      | none =>
        match takeNumber 16 4 inner with
        | none => ([], false, chars)
        | some (n, rest) =>
          let (groups, fourth, rest) := takeGroups false room rest
          (UInt16.ofNat n :: groups, fourth, rest)

/-- Reads an address of version 6. Two colons stand for the groups that are missing. -/
def takeSixth (chars : List Char) : Option (List UInt16 × List Char) :=
  let (head, fourth, rest) := takeGroups true 8 chars
  if head.length = 8 then some (head, rest)
  else if fourth then none
  else do
    let rest ← takeChar ':' (← takeChar ':' rest)
    let (tail, _, rest) := takeGroups true (7 - head.length) rest
    some (head ++ List.replicate (8 - head.length - tail.length) 0 ++ tail, rest)

/-- Reads a port to the end of the text. -/
def wholePort (chars : List Char) : Option UInt16 :=
  ((natural? 10 chars).filter (· < 65536)).map UInt16.ofNat

/-- The zone behind an address of version 6. -/
def takeZone (chars : List Char) : Option (UInt32 × List Char) :=
  match chars with
  | '%' :: rest =>
    let digits := rest.takeWhile Char.isDigit
    ((natural? 10 digits).filter (· < twoPow 32)).map fun n =>
      (UInt32.ofNat n, rest.drop digits.length)
  | rest => some (0, rest)

/-- An endpoint that is written in full. -/
def numericEndpoint? (chars : List Char) : Option Endpoint :=
  match takeFourth chars with
  | some (n, rest) => do
    some ⟨.v4 (UInt32.ofNat n), ← wholePort (← takeChar ':' rest)⟩
  | none => do
    let (groups, rest) ← takeSixth (← takeChar '[' chars)
    let (zone, rest) ← takeZone rest
    some ⟨.v6 groups zone, ← wholePort (← takeChar ':' (← takeChar ']' rest))⟩

/-- A number of a short address: hexadecimal, octal or decimal. -/
def shortNumber? (chars : List Char) : Option Nat :=
  match chars with
  | '0' :: 'x' :: rest | '0' :: 'X' :: rest => natural? 16 rest
  | '0' :: rest => if rest.isEmpty then some 0 else natural? 8 rest
  | rest => natural? 10 rest

/-- An address of version 4 by one to four numbers, of which the last fills what is left. -/
def shortAddress? (chars : List Char) : Option Nat := do
  let numbers ← (Text.split '.' chars).mapM shortNumber?
  let fill (n bits : Nat) (high : Nat) : Option Nat :=
    if n < twoPow bits then some (high * twoPow bits + n) else none
  match numbers with
  | [a] => fill a 32 0
  | [a, b] => fill b 24 (← fill a 8 0)
  | [a, b, c] => fill c 16 (← fill b 8 (← fill a 8 0))
  | [a, b, c, d] => fill d 8 (← fill c 8 (← fill b 8 (← fill a 8 0)))
  | _ => none

/-- The address of a host whose name is numeric. -/
def numericHost? (name : List Char) : Option HostAddress :=
  match shortAddress? name with
  | some n => some (.v4 (UInt32.ofNat n))
  | none =>
    match takeSixth name with
    | some (groups, []) => some (.v6 groups 0)
    | _ => none

/-- The part of a list before the last occurrence of a character and the part behind it. -/
def cutAtLast (c : Char) (chars : List Char) : Option (List Char × List Char) :=
  let after := (chars.reverse.takeWhile (· != c)).reverse
  if after.length = chars.length then none
  else some (chars.take (chars.length - after.length - 1), after)

/-- **How names of hosts are resolved**: a name stands for addresses, of which the first is the one
to try first, or there is a reason why it cannot be looked up. -/
abbrev Resolver := String → Except IoFault (List HostAddress)

namespace Resolver

/-- The fault of a name that stands for nothing. -/
def unknownName : IoFault :=
  .other "failed to lookup address information: Name or service not known"

/-- **The resolver with a table of names.** Numeric names are known without it. -/
def ofTable (table : List (String × HostAddress)) : Resolver := fun name =>
  match numericHost? name.toList with
  | some host => pure [host]
  | none =>
    match table.filter (·.1 == name) with
    | [] => throw unknownName
    | entries => pure (entries.map (·.2))

/-- The resolver that knows no name but the one by which a machine calls itself. -/
def loopback : Resolver := ofTable [("localhost", .v4 0x7F000001)]

end Resolver

/-- **The endpoint that a text gives.** -/
def Endpoint.ofText (names : Resolver) (text : String) : Except IoFault Endpoint :=
  let chars := match text.toList with
    | ':' :: rest => "0.0.0.0:".toList ++ rest
    | chars => chars
  match numericEndpoint? chars with
  | some endpoint => pure endpoint
  | none =>
    match cutAtLast ':' chars with
    | none => throw (.other "invalid socket address")
    | some (name, port) =>
      match bounded? 65535 port with
      | none => throw (.other "invalid port value")
      | some port =>
        if name.contains '\x00' then throw .nullInName
        else match names (String.ofList name) with
          | .error fault => throw fault
          | .ok [] => throw (.other ("'" ++ text ++ "' resolves to no address"))
          | .ok (host :: _) => pure ⟨host, UInt16.ofNat port⟩

/-! ## Writing -/

/-- The digits of a number in base sixteen. -/
def hexText (n : Nat) : String := String.ofList (Nat.toDigits 16 n)

/-- The four numbers of an address of version 4. -/
def fourthText (n : Nat) : String :=
  ".".intercalate ([n / twoPow 24, n / twoPow 16 % 256, n / twoPow 8 % 256, n % 256].map toString)

/-- How many zeros a list starts with. -/
def zerosAhead (groups : List UInt16) : Nat := (groups.takeWhile (· == 0)).length

/-- The first longest run of zeros: where it starts and how long it is. -/
def longestZeros (groups : List UInt16) : Nat × Nat :=
  (List.range groups.length).foldl
    (fun best start =>
      let length := zerosAhead (groups.drop start)
      if best.2 < length then (start, length) else best) (0, 0)

/-- Groups with colons between them. -/
def groupsText (groups : List UInt16) : String :=
  ":".intercalate (groups.map fun group => hexText group.toNat)

/-- An address of version 6. The first longest run of two or more zeros is left out; an address
that stands for one of version 4 shows it. -/
def sixthText (groups : List UInt16) : String :=
  match groups with
  | [0, 0, 0, 0, 0, 0xFFFF, a, b] => "::ffff:" ++ fourthText (a.toNat * 65536 + b.toNat)
  | groups =>
    let (start, length) := longestZeros groups
    if length < 2 then groupsText groups
    else groupsText (groups.take start) ++ "::" ++ groupsText (groups.drop (start + length))

/-- **The text of an endpoint.** -/
def Endpoint.text (endpoint : Endpoint) : String :=
  match endpoint.host with
  | .v4 value => fourthText value.toNat ++ ":" ++ toString endpoint.port.toNat
  | .v6 groups zone =>
    "[" ++ sixthText groups ++ (if zone == 0 then "" else "%" ++ toString zone.toNat) ++ "]:" ++
      toString endpoint.port.toNat

/-- **Where the server listens.** -/
def Server.endpoint (server : Server) (names : Resolver := .loopback) : Except IoFault Endpoint :=
  Endpoint.ofText names server.address

end Rulebook.Settings
