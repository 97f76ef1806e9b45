import Rulebook.Decimal.Numeral
import Rulebook.Text.Split
import Rulebook.Text.Utf8

/-!
# What a request asks for

The **target** of a request is a path and, behind a question mark, a query. Only certain characters
of ASCII may stand in either; every other byte is written as a percent sign and two hexadecimal
digits. The path is a list of segments: empty ones do not count, and each is decoded by itself, so
that a slash that is written by its code does not separate. The query is a list of pairs of a name
and a value; in both a plus sign means a space.

Bytes that are no UTF-8 are decoded leniently.
-/

namespace Rulebook.Http

open Rulebook.Decimal (digitValue?)

/-- **The segments of a path and the pairs of a query**, decoded. -/
structure Target where
  /-- The segments. -/
  segments : List String
  /-- The pairs. -/
  query : List (String × String)
deriving DecidableEq, Repr, Inhabited

/-- Whether a character may stand in a path. -/
def isPathChar (c : Char) : Bool := c.isAlphanum || "-._~%!$&'()*+,;=:@/".toList.contains c

/-- Whether a character may stand in a query. -/
def isQueryChar (c : Char) : Bool := isPathChar c || "?[]\x7b\x7d\\^`|".toList.contains c

/-- **The bytes that percent signs and other characters stand for.** A percent sign that is not
followed by two digits stands for itself. -/
def percentBytes : List Char → List UInt8
  | '%' :: a :: b :: rest =>
    match digitValue? 16 a, digitValue? 16 b with
    | some x, some y => UInt8.ofNat (16 * x + y) :: percentBytes rest
    | _, _ => 37 :: percentBytes (a :: b :: rest)
  | c :: rest => UInt8.ofNat c.toNat :: percentBytes rest
  | [] => []

/-- The text that a segment stands for. -/
def percentDecode (chars : List Char) : String := Text.decodeLenient (percentBytes chars)

/-- The text that a name or a value of a query stands for. -/
def formDecode (chars : List Char) : String :=
  percentDecode (chars.map fun c => if c == '+' then ' ' else c)

/-- The pieces between the occurrences of a character that are not empty. -/
def pieces (mark : Char) (chars : List Char) : List (List Char) :=
  (Text.split mark chars).filter (!·.isEmpty)

namespace Target

/-- The segments of a path. -/
def segmentsOf (path : List Char) : List String := (pieces '/' path).map percentDecode

/-- The pairs of a query. -/
def queryOf (query : List Char) : List (String × String) :=
  (pieces '&' query).map fun pair =>
    let (name, value) := Text.cut '=' pair
    (formDecode name, formDecode value)

/-- **Reads a target**, if it is one. -/
def ofText? (text : String) : Option Target :=
  let chars := text.toList
  let path := chars.takeWhile isPathChar
  let rest := chars.drop path.length
  if chars.head? != some '/' then none
  else
    match rest with
    | [] => some ⟨segmentsOf path, []⟩
    | '?' :: query =>
      if query.all isQueryChar then some ⟨segmentsOf path, queryOf query⟩ else none
    | _ => none

end Target

end Rulebook.Http
