import Rulebook.Document.Plain
import Rulebook.Json.Node

/-!
# Reading typed values out of JSON text

A **focus** is a value of a JSON text with the number of levels that may still be entered. Lists
and objects that are read may be nested 127 deep; those that are skipped as deep as they like.

`Json.read` reads a whole text, behind whose value nothing but white space may stand.
-/

namespace Rulebook.Json

open Rulebook.Document
open Rulebook.Decimal (Number)

/-- **A value of a JSON text.** -/
structure Focus where
  /-- The value. -/
  node : Node
  /-- How many levels may be entered. -/
  depth : Nat

/-- How deep lists and objects may be nested. -/
def maxDepth : Nat := 127

/-- Meets a flaw. -/
def meet {α : Type} (flaw : Flaw) : Reading α := refuse (.malformed flaw.message)

/-- The fault at the end of a list or object that breaks off. -/
def endingFault (ending : Option Break) : Option Fault :=
  ending.map fun break_ => .of (.malformed break_.read.message)

/-- What a number is found to be. -/
def foundNumber : Number → Found
  | .integer value => .integer value
  | .float value => .documentFloat value

namespace Focus

/-- A value of the wrong kind. -/
def mismatch {α : Type} (focus : Focus) (expected : String) : Reading α :=
  match focus.node with
  | .null => refuse (.invalidType .null expected)
  | .flag value => refuse (.invalidType (.flag value) expected)
  | .number (.ok value) => refuse (.invalidType (foundNumber value) expected)
  | .number (.error flaw) => meet flaw
  | .text (.ok value) => refuse (.invalidType (.text value) expected)
  | .text (.error flaw) => meet flaw
  | .list .. => refuse (.invalidType .sequence expected)
  | .object .. => refuse (.invalidType .mapping expected)
  | .broken break_ => meet break_.read

/-- Enters a list or object. -/
def enter {α : Type} (focus : Focus) (parts : Nat → α) : Reading α :=
  match focus.depth with
  | 0 => refuse .recursionLimit
  | depth + 1 => pure (parts depth)

/-- Enters a list. -/
def enterItems (focus : Focus) (items : List Node) (ending : Option Break) : Reading (Run Focus) :=
  focus.enter fun depth => ⟨items.map (Focus.mk · depth), endingFault ending⟩

/-- Enters an object. -/
def enterMembers (focus : Focus) (members : List (Node × Node)) (ending : Option Break) :
    Reading (Run (Focus × Focus)) :=
  focus.enter fun depth =>
    ⟨members.map fun member => (⟨member.1, depth⟩, ⟨member.2, depth⟩), endingFault ending⟩

/-- A text. -/
def text (expected : String) (focus : Focus) : Reading String :=
  match focus.node with
  | .text (.ok value) => pure value
  | _ => focus.mismatch expected

/-- A whole number of 32 bits. -/
def int32 (focus : Focus) : Reading Int32 :=
  match focus.node with
  | .number (.ok (.integer value)) => int32OfInteger value
  | _ => focus.mismatch "i32"

/-- A truth value. -/
def flag (focus : Focus) : Reading Bool :=
  match focus.node with
  | .flag value => pure value
  | _ => focus.mismatch "a boolean"

/-- One of several names, alone or as the only key of an object that holds nothing. -/
def choice (names : List String) (focus : Focus) : Reading String :=
  match focus.node with
  | .text (.ok name) => Data.chosen names name
  | .text (.error flaw) => meet flaw
  | .object members ending => do
    let run ← focus.enterMembers members ending
    match run.parts with
    | [] => meet (if ending.isSome then .endInValue else .expectedValue)
    | (key, content) :: rest =>
      let name ← match key.node with
        | .broken ⟨.keyNotString, _⟩ => content.mismatch "variant identifier"
        | _ => key.text "variant identifier"
      let name ← Data.chosen names name
      match content.node with
      | .null =>
        if rest.isEmpty then
          match ending with
          | none => pure name
          | some break_ =>
            if break_.read == .endInObject then meet .endInObject else meet .expectedValue
        else meet .expectedValue
      | _ => content.mismatch "unit"
  | .broken break_ => meet break_.read
  | _ => meet .expectedValue

/-- A value, unless it is null. -/
def optional (focus : Focus) : Reading (Option Focus) :=
  match focus.node with
  | .null => pure none
  | _ => pure (some focus)

/-- The items of a list. -/
def items (focus : Focus) : Reading (Run Focus) :=
  match focus.node with
  | .list items ending => focus.enterItems items ending
  | _ => focus.mismatch "a sequence"

/-- The entries of an object. -/
def entries (focus : Focus) : Reading (Run (Focus × Focus)) :=
  match focus.node with
  | .object members ending => focus.enterMembers members ending
  | _ => focus.mismatch "a map"

/-- The fields of a record, which may be given as a list. -/
def fields (title : String) (focus : Focus) : Reading (Fields Focus) :=
  match focus.node with
  | .object members ending => .named <$> focus.enterMembers members ending
  | .list items ending => .listed <$> focus.enterItems items ending
  | _ => focus.mismatch title

/-- A list that is longer than the record it stands for, or whose end is missing. -/
def surplus (run : Run Focus) : Reading Unit :=
  if run.parts.isEmpty then
    match run.ending with
    | none => pure ()
    | some fault =>
      if fault.cause == .malformed Flaw.trailingComma.message ||
          fault.cause == .malformed Flaw.endInList.message then throw fault
      else meet .trailingCharacters
  else meet .trailingCharacters

/-- Passes over a value. -/
def skip (focus : Focus) : Reading Unit :=
  match focus.node.skipFlaw? with
  | none => pure ()
  | some flaw => meet flaw

end Focus

instance : Source Focus where
  text := Focus.text
  int32 := Focus.int32
  flag := Focus.flag
  choice := Focus.choice
  optional := Focus.optional
  items := Focus.items
  entries := Focus.entries
  fields := Focus.fields
  surplus _ := Focus.surplus
  skip := Focus.skip
  within _ reading := reading

/-- Reads the entries of an object as plain data. -/
def readDataMembers (read : Focus → Reading Data) :
    List (Focus × Focus) → Table Data → Reading (Table Data)
  | [], done => pure done
  | (key, value) :: rest, done => do
    let name ← key.text "a string key"
    let value ← read value
    readDataMembers read rest (done.insert name value)

/-- **Reads any value as plain data**, the entries of an object in the order of their keys. -/
def readDataAt : Nat → Focus → Reading Data
  | depth, focus =>
    match focus.node with
    | .null => pure .null
    | .flag value => pure (.flag value)
    | .number (.ok (.integer value)) => pure (.integer value)
    | .number (.ok (.float value)) => pure (.float value)
    | .text (.ok value) => pure (.text value)
    | .list items ending =>
      match depth with
      | 0 => refuse .recursionLimit
      | depth + 1 => do
        let run ← focus.enterItems items ending
        .list <$> readParts (readDataAt depth) run
    | .object members ending =>
      match depth with
      | 0 => refuse .recursionLimit
      | depth + 1 => do
        let run ← focus.enterMembers members ending
        let table ← readDataMembers (readDataAt depth) run.parts ∅
        run.finish
        pure (.table table.entries)
    | _ => focus.mismatch "any value"

/-- **Any value as plain data.** -/
def readData (focus : Focus) : Reading Data := readDataAt focus.depth focus

/-- **Reads the bytes of a JSON text.** -/
def readBytes {α : Type} (reader : Focus → Reading α) (bytes : List UInt8) : Except Fault α := do
  let (node, rest) := Node.ofBytes bytes
  let value ← (reader ⟨node, maxDepth⟩).value
  match rest with
  | some rest =>
    if (Node.dropSpace rest).isEmpty then pure value
    else throw (.of (.malformed Flaw.trailingCharacters.message))
  | none => throw (.of (.malformed Flaw.endInValue.message))

/-- **Reads a JSON text.** -/
def read {α : Type} (reader : Focus → Reading α) (text : String) : Except Fault α :=
  readBytes reader (Text.encode text)

end Rulebook.Json
