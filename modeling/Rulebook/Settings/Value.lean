import Rulebook.Document.Source

/-!
# Settings before they are typed

A file or an environment gives some of the settings, as **values**: texts, numbers, flags, lists
and tables with their keys in order. Values are laid over one another (`Value.laidOver`): a table
over a table gives the keys of both, and anything else hides what is below it.

`Focus` makes values a source of documents, so that the sections are read from them as from any
other. A number keeps the kind it was written as, because a refusal names it.
-/

namespace Rulebook.Settings

open Rulebook.Decimal (Binary64 Style fitsSigned twoPow)
open Rulebook.Document

/-- **Settings before they are typed.** -/
inductive Value where
  /-- The absence of a value. -/
  | unit
  /-- A truth value. -/
  | flag (value : Bool)
  /-- A whole number of a kind without sign. -/
  | unsigned (value : Nat)
  /-- A whole number of a kind with sign. -/
  | signed (value : Int)
  /-- A number with a point or an exponent. -/
  | float (value : Binary64)
  /-- A single character, which is a text too. -/
  | letter (value : Char)
  /-- A text. -/
  | text (value : String)
  /-- A list. -/
  | list (items : List Value)
  /-- A table, the keys ascending. -/
  | table (entries : List (String × Value))
deriving Inhabited, BEq, Repr

namespace Value

/-- The table without keys. -/
def empty : Value := .table []

/-- The part of a table with the given key. -/
def get? (value : Value) (key : String) : Option Value :=
  match value with
  | .table entries => Table.find? key entries
  | _ => none

mutual

/-- **Lays values over others.** Only tables let through what is below them. -/
def laidOver : Value → Value → Value
  | .table upper, .table lower => .table (entriesOver upper lower)
  | upper, _ => upper

/-- Lays entries over others. -/
def entriesOver : List (String × Value) → List (String × Value) → List (String × Value)
  | [], lower => lower
  | (key, value) :: upper, lower =>
    let value := match Table.find? key lower with
      | some below => laidOver value below
      | none => value
    entriesOver upper (Table.place key value lower)

end

/-- The values that set one thing only, at the place that the keys lead to. -/
def nested : List String → Value → Value
  | [], value => value
  | key :: keys, value => .table [(key, nested keys value)]

/-- What stands at a place, the last step first. -/
def at? (root : Value) : Place → Option Value
  | [] => some root
  | step :: place => do
    match step, ← at? root place with
    | .key name, .table entries => Table.find? name entries
    | .index n, .list items => items[n]?
    | _, _ => none

/-- How a refusal names a value. -/
def found : Value → String
  | .unit => "unit"
  | .flag value => if value then "bool true" else "bool false"
  | .unsigned value =>
    if value < twoPow 64 then "unsigned int `" ++ toString value ++ "`"
    else "integer `" ++ toString value ++ "` as u128"
  | .signed value =>
    if fitsSigned 64 value then "signed int `" ++ toString value ++ "`"
    else "integer `" ++ toString value ++ "` as i128"
  | .float value => "float `" ++ value.text .plain ++ "`"
  | .letter value => "char " ++ Text.quotedChar value
  | .text value => "string " ++ Text.quoted value
  | .list _ => "sequence"
  | .table _ => "map"

/-- A value of the wrong kind. -/
def mismatch {α : Type} (value : Value) (expected : String) : Reading α :=
  refuse (.invalidType (.other ("found " ++ value.found)) expected)

end Value

/-- **A value and its place.** -/
structure Focus where
  /-- The value. -/
  value : Value
  /-- The steps that lead to it, the last one first. -/
  place : Place

namespace Focus

/-- The items of a list with their places. -/
def itemsOf (focus : Focus) (items : List Value) : Run Focus :=
  ⟨items.zipIdx.map fun (item, index) => ⟨item, .index index :: focus.place⟩, none⟩

/-- The entries of a table with their places. -/
def entriesOf (focus : Focus) (entries : List (String × Value)) : Run (Focus × Focus) :=
  ⟨entries.map fun (key, value) => (⟨.text key, focus.place⟩, ⟨value, .key key :: focus.place⟩),
    none⟩

/-- A text. -/
def text (expected : String) (focus : Focus) : Reading String :=
  atPlace focus.place do
    match focus.value with
    | .text value => pure value
    | .letter value => pure (String.singleton value)
    | value => value.mismatch expected

/-- A whole number of 32 bits. -/
def int32 (focus : Focus) : Reading Int32 :=
  atPlace focus.place do
    match focus.value with
    | .unsigned value =>
      if fitsSigned 32 value then pure (Int32.ofInt value) else focus.value.mismatch "i32"
    | .signed value =>
      if fitsSigned 32 value then pure (Int32.ofInt value) else focus.value.mismatch "i32"
    | value => value.mismatch "i32"

/-- A truth value. -/
def flag (focus : Focus) : Reading Bool :=
  atPlace focus.place do
    match focus.value with
    | .flag value => pure value
    | value => value.mismatch "a boolean"

/-- One of several names. -/
def choice (names : List String) (focus : Focus) : Reading String :=
  atPlace focus.place do
    let name ← focus.text "string or map"
    if names.contains name then pure name else refuse (.unknownVariant name names)

/-- A value, unless there is none. -/
def optional (focus : Focus) : Reading (Option Focus) :=
  match focus.value with
  | .unit => pure none
  | _ => pure (some focus)

/-- The items of a list. -/
def items (focus : Focus) : Reading (Run Focus) :=
  match focus.value with
  | .list items => pure (focus.itemsOf items)
  | value => value.mismatch "a sequence"

/-- The entries of a table. -/
def entries (focus : Focus) : Reading (Run (Focus × Focus)) :=
  match focus.value with
  | .table entries => pure (focus.entriesOf entries)
  | value => value.mismatch "a map"

/-- The fields of a section, which may be given as a list. -/
def fields (title : String) (focus : Focus) : Reading (Fields Focus) :=
  match focus.value with
  | .table entries => pure (.named (focus.entriesOf entries))
  | .list items => pure (.listed (focus.itemsOf items))
  | value => value.mismatch title

end Focus

instance : Source Focus where
  text := Focus.text
  int32 := Focus.int32
  flag := Focus.flag
  choice := Focus.choice
  optional := Focus.optional
  items := Focus.items
  entries := Focus.entries
  fields := Focus.fields
  surplus _ _ := pure ()
  skip _ := pure ()
  within focus reading := atPlace focus.place reading

end Rulebook.Settings
