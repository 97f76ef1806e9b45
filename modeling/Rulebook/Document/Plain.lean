import Rulebook.Document.Source

/-!
# Reading typed values out of plain data

Plain data is itself a kind of document. Nothing can break off in it and it has no references, so
a reading of it is refused for its data only.
-/

namespace Rulebook.Document

open Rulebook.Decimal (Binary64 fitsSigned)

/-- How a message names a number with a point in a document that writes its numbers in the style
of documents. -/
def Found.documentFloat (value : Binary64) : Found :=
  .other ("floating point `" ++ value.text .json ++ "`")

/-- What a whole number is found to be. -/
def Found.integer (value : Int) : Found :=
  if value < 0 then .signed value else .unsigned value.toNat

/-- A whole number of 32 bits, if it is one. -/
def int32OfInteger (value : Int) : Reading Int32 :=
  if fitsSigned 32 value then pure (Int32.ofInt value)
  else refuse (.invalidValue (.integer value) "i32")

namespace Data

/-- What a value is found to be. -/
def found : Data → Found
  | .null => .null
  | .flag value => .flag value
  | .integer value => .integer value
  | .float value => .documentFloat value
  | .text value => .text value
  | .list _ => .sequence
  | .table _ => .mapping

/-- A value of the wrong kind. -/
def mismatch {α : Type} (data : Data) (expected : String) : Reading α :=
  refuse (.invalidType data.found expected)

/-- A text. -/
def readText (expected : String) : Data → Reading String
  | .text value => pure value
  | data => data.mismatch expected

/-- A whole number of 32 bits. -/
def readInt32 : Data → Reading Int32
  | .integer value => int32OfInteger value
  | data => data.mismatch "i32"

/-- A truth value. -/
def readFlag : Data → Reading Bool
  | .flag value => pure value
  | data => data.mismatch "a boolean"

/-- A name that is one of several. -/
def chosen (names : List String) (name : String) : Reading String :=
  if names.contains name then pure name else refuse (.unknownVariant name names)

/-- One of several names, alone or as the only key of a table that holds nothing. -/
def readChoice (names : List String) : Data → Reading String
  | .text name => chosen names name
  | .table [(name, content)] => do
    let name ← chosen names name
    match content with
    | .null => pure name
    | content => content.mismatch "unit"
  | .table _ => refuse (.invalidValue .mapping "map with a single key")
  | data => data.mismatch "string or map"

/-- A value, unless it is null. -/
def readOptional : Data → Reading (Option Data)
  | .null => pure none
  | data => pure (some data)

/-- The items of a list. -/
def readItems : Data → Reading (Run Data)
  | .list items => pure ⟨items, none⟩
  | data => data.mismatch "a sequence"

/-- Entries with their keys as values. -/
def keyed (entries : List (String × Data)) : Run (Data × Data) :=
  ⟨entries.map fun entry => (.text entry.1, entry.2), none⟩

/-- The entries of a table. -/
def readEntries : Data → Reading (Run (Data × Data))
  | .table entries => pure (keyed entries)
  | data => data.mismatch "a map"

/-- The fields of a record, which may be given as a list. -/
def readFields (title : String) : Data → Reading (Fields Data)
  | .table entries => pure (.named (keyed entries))
  | .list items => pure (.listed ⟨items, none⟩)
  | data => data.mismatch title

/-- A list that is longer than the record it stands for. -/
def readSurplus (count : Nat) (run : Run Data) : Reading Unit :=
  if run.parts.isEmpty then pure ()
  else refuse (.invalidLength (count + run.parts.length) "fewer elements in array")

end Data

instance : Source Data where
  text := Data.readText
  int32 := Data.readInt32
  flag := Data.readFlag
  choice := Data.readChoice
  optional := Data.readOptional
  items := Data.readItems
  entries := Data.readEntries
  fields := Data.readFields
  surplus := Data.readSurplus
  skip _ := pure ()
  within _ reading := reading

end Rulebook.Document
