import Rulebook.Decimal.Binary64
import Rulebook.Table

/-!
# Plain data

What the service writes – the rule content, the groups, the settings, an answer to a request – is
first brought into one neutral form, **plain data**: texts, numbers, flags, lists and tables with
text keys. A format, JSON or MessagePack, is then a way of writing plain data, and a type of the
domain says once how it is laid out.

A table of plain data keeps its entries in the order in which they are written. `Data.sorted`
brings the entries of every table into the order of their keys, which is the form in which an
answer to a request is sent.
-/

namespace Rulebook.Document

open Rulebook.Decimal (Binary64)

/-- **Plain data.** -/
inductive Data where
  /-- The absence of a value. -/
  | null
  /-- A truth value. -/
  | flag (value : Bool)
  /-- A whole number. -/
  | integer (value : Int)
  /-- A number that is not kept as a whole one. -/
  | float (value : Binary64)
  /-- A text. -/
  | text (value : String)
  /-- A list. -/
  | list (items : List Data)
  /-- Named parts, in the order in which they are written. -/
  | table (entries : List (String × Data))
deriving Inhabited, BEq, Repr

namespace Data

/-- The table of plain data that a table of values becomes. -/
def ofTable {V : Type} (f : V → Data) (table : Table V) : Data :=
  .table (table.entries.map fun entry => (entry.1, f entry.2))

/-- A list of texts. -/
def ofTexts (texts : List String) : Data := .list (texts.map .text)

mutual

/-- **The same data with the entries of every table in the order of their keys**; of two entries
with one key the later is kept. -/
def sorted : Data → Data
  | .list items => .list (sortedItems items)
  | .table entries => .table (sortedEntries entries ∅).entries
  | other => other

/-- `sorted` on each item of a list. -/
def sortedItems : List Data → List Data
  | [] => []
  | item :: rest => item.sorted :: sortedItems rest

/-- Adds sorted entries one by one to a table. -/
def sortedEntries : List (String × Data) → Table Data → Table Data
  | [], done => done
  | (key, value) :: rest, done => sortedEntries rest (done.insert key value.sorted)

end

/-- The part of a table with the given key. -/
def get? (data : Data) (key : String) : Option Data :=
  match data with
  | .table entries => Table.find? key entries
  | _ => none

end Data

end Rulebook.Document
