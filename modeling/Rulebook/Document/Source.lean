import Rulebook.Document.Data
import Rulebook.Document.Fault

/-!
# Reading typed values out of documents

The types of the catalogue are read from five kinds of document: YAML text, JSON text, plain data,
layered settings and MessagePack. What is asked for is the same each time – a text, a list of
texts, a record with these fields – and what differs is how a format answers. So a format is a
**source**: a type of cursors, each at one value of a document, with an answer to every question
that can be put to a value. A reader of a type is then written once, for all sources.

A container is answered as a **run** of cursors. A run ends where the container ends, or where the
text breaks off; the fault is then met only by whoever reads that far, which is why a wrong value
is reported before a syntax fault that follows it.

Readings count the references that they follow, because one format limits their number.

The questions about containers are put together here: `readList`, `readTable`, `readRecord`.
A record is given by its name and its fields, and takes either form that a document may give it:
a table, whose unknown keys are passed over and whose keys may not repeat, or a list of the fields
in their order.
-/

namespace Rulebook.Document

/-- **A reading**: it may be refused, and it counts the references it has followed. -/
abbrev Reading (α : Type) := StateT Nat (Except Fault) α

/-- Refuses, the place being left to whoever knows it. -/
def refuse {α : Type} (cause : Cause) : Reading α := throw (Fault.of cause)

/-- Answers a refusal without a place with the given one. -/
def atPlace {α : Type} (place : Place) (reading : Reading α) : Reading α :=
  tryCatch reading fun fault => throw (fault.placedAt place)

/-- The value of a reading that has followed no reference before it. -/
def Reading.value {α : Type} (reading : Reading α) : Except Fault α :=
  (reading.run 0).map (·.1)

/-- **The parts of a container** up to its end or up to where its text breaks off. -/
structure Run (α : Type) where
  /-- The parts, in order. -/
  parts : List α
  /-- What is met after the last part, if it is not the end of the container. -/
  ending : Option Fault := none

/-- Meets the end of a run. -/
def Run.finish {α : Type} (run : Run α) : Reading Unit :=
  match run.ending with
  | none => pure ()
  | some fault => throw fault

/-- The two forms of a record. -/
inductive Fields (σ : Type) where
  /-- Keys and values. -/
  | named (entries : Run (σ × σ))
  /-- The values alone, in the order of the fields. -/
  | listed (items : Run σ)

/-- **A kind of document**: the answers that a cursor gives. -/
class Source (σ : Type) where
  /-- A text. The words say what was expected. -/
  text : String → σ → Reading String
  /-- A whole number of 32 bits. -/
  int32 : σ → Reading Int32
  /-- A truth value. -/
  flag : σ → Reading Bool
  /-- One of several names. -/
  choice : List String → σ → Reading String
  /-- A value, unless there is none. -/
  optional : σ → Reading (Option σ)
  /-- The items of a list. -/
  items : σ → Reading (Run σ)
  /-- The entries of a table. -/
  entries : σ → Reading (Run (σ × σ))
  /-- The fields of a record. -/
  fields : String → σ → Reading (Fields σ)
  /-- What becomes of the items of a listed record after its last field: how many fields there
  are, and what is left. -/
  surplus : Nat → Run σ → Reading Unit
  /-- Passes over a value. -/
  skip : σ → Reading Unit
  /-- Carries out a reading of the parts of a value; a refusal that has no place gets that of the
  value. -/
  within : {α : Type} → σ → Reading α → Reading α

section Readers

variable {σ : Type} [Source σ] {α ρ : Type}

/-- **A text.** -/
def readText (value : σ) : Reading String := Source.text "a string" value

/-- **A value that may be absent.** -/
def readOption (read : σ → Reading α) (value : σ) : Reading (Option α) := do
  match ← Source.optional value with
  | none => pure none
  | some value => some <$> read value

/-- **A value whose absence stands for a given one.** -/
def readOr (absent : α) (read : σ → Reading α) (value : σ) : Reading α :=
  (·.getD absent) <$> readOption read value

/-- Reads the parts of a run one after the other. -/
def readParts (read : σ → Reading α) (run : Run σ) : Reading (List α) := do
  let values ← run.parts.mapM read
  run.finish
  pure values

/-- **A list.** -/
def readList (read : σ → Reading α) (value : σ) : Reading (List α) :=
  Source.within value do
    let run ← Source.items value
    readParts read run

/-- **A list of texts.** -/
def readTexts (value : σ) : Reading (List String) := readList readText value

/-- Adds the entries of a run to a table. -/
def readEntries (read : σ → Reading α) : List (σ × σ) → Table α → Reading (Table α)
  | [], table => pure table
  | (key, value) :: rest, table => do
    let name ← readText key
    let value ← read value
    readEntries read rest (table.insert name value)

/-- **A table**; of two entries with one key the later is kept. -/
def readTable (read : σ → Reading α) (value : σ) : Reading (Table α) :=
  Source.within value do
    let run ← Source.entries value
    let table ← readEntries read run.parts ∅
    run.finish
    pure table

/-- **A field of a record**: how its value is read and stored. -/
structure Field (σ ρ : Type) where
  /-- The key of the field. -/
  name : String
  /-- Whether the record cannot do without it. -/
  needed : Bool
  /-- Reads the value and stores it in the record. -/
  store : σ → Reading (ρ → ρ)

/-- A field that a record may lack. -/
def Field.optional (name : String) (read : σ → Reading α) (set : α → ρ → ρ) : Field σ ρ :=
  ⟨name, false, fun value => set <$> read value⟩

/-- A field that a record needs. -/
def Field.mandatory (name : String) (read : σ → Reading α) (set : α → ρ → ρ) : Field σ ρ :=
  ⟨name, true, fun value => set <$> read value⟩

/-- Reads the entries of a record in their order. `given` are the fields met so far. -/
def readNamed (fields : List (Field σ ρ)) :
    List (σ × σ) → List String → ρ → Reading (List String × ρ)
  | [], given, record => pure (given, record)
  | (key, value) :: rest, given, record => do
    let name ← Source.text "field identifier" key
    match fields.find? (·.name == name) with
    | none =>
      Source.skip value
      readNamed fields rest given record
    | some field =>
      if given.contains name then refuse (.duplicateField name)
      let change ← field.store value
      readNamed fields rest (name :: given) (change record)

/-- Reads the values of a record that is given as a list. `index` counts the fields before. -/
def readListed (expected : String) (ending : Option Fault) :
    List (Field σ ρ) → Nat → List σ → ρ → Reading (List σ × ρ)
  | [], _, rest, record => pure (rest, record)
  | field :: fields, index, value :: rest, record => do
    let change ← field.store value
    readListed expected ending fields (index + 1) rest (change record)
  | field :: fields, index, [], record => do
    (Run.mk ([] : List σ) ending).finish
    if field.needed then refuse (.invalidLength index expected)
    readListed expected ending fields (index + 1) [] record

/-- How a message names a record that was expected as a list. -/
def elementsText (title : String) (count : Nat) : String :=
  title ++ " with " ++ toString count ++ (if count == 1 then " element" else " elements")

/-- **A record**, all of whose fields start from the values in `start`. -/
def readRecord (title : String) (start : ρ) (fields : List (Field σ ρ)) (value : σ) : Reading ρ :=
  Source.within value do
    match ← Source.fields title value with
    | .named run =>
      let (given, record) ← readNamed fields run.parts [] start
      run.finish
      match fields.find? fun field => field.needed && !given.contains field.name with
      | some field => refuse (.missingField field.name)
      | none => pure record
    | .listed run =>
      let (rest, record) ←
        readListed (elementsText title fields.length) run.ending fields 0 run.parts start
      Source.surplus fields.length ⟨rest, run.ending⟩
      pure record

end Readers

end Rulebook.Document
