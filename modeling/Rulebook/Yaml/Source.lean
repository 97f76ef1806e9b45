import Rulebook.Document.Source
import Rulebook.Yaml.Node
import Rulebook.Yaml.Value

/-!
# Reading typed values out of YAML

A **focus** is a node of a document together with its place, the number of levels that may still be
entered below it, and the document, in which references are looked up. It is a source: any scalar
is a text, whatever its spelling; a number is asked for by its spelling; an empty scalar without
quotes is an empty list, table or record. A record is given as a table only.

Three limits hold. Lists and tables may be nested 128 deep. References may be followed a hundred
times as often as the document has events. And a fault of the text is met where the reading comes
to the place at which the text breaks off.
-/

namespace Rulebook.Yaml

open Rulebook.Document
open Rulebook.Decimal (Number fitsSigned twoPow)

/-- **A node in its document.** -/
structure Focus where
  /-- The node. -/
  node : Node
  /-- Where it stands. -/
  place : Place
  /-- How many levels may be entered below it. -/
  depth : Nat
  /-- The document. -/
  document : Document

/-- How deep lists and tables may be nested. -/
def maxDepth : Nat := 128

/-- How often references may be followed for each event of the document. -/
def jumpsPerEvent : Nat := 100

/-- The tags that the core schema defines. -/
def coreTag (name : String) : String := "tag:yaml.org,2002:" ++ name

/-- What is met where a document breaks off. -/
def Document.breakFault (document : Document) : Fault :=
  match document.broken with
  | some (.malformed reason) => .of (.malformed reason)
  | some .unknownAnchor => .of .unknownAnchor
  | none => .of .endOfInput

namespace Focus

/-- What is met behind the last part of a list or table. -/
def ending (focus : Focus) (whole : Bool) : Option Fault :=
  if whole then none else some focus.document.breakFault

/-- **Follows a reference**, if the node is one. -/
def resolve (focus : Focus) : Reading Focus := do
  match focus.node with
  | .cut => throw focus.document.breakFault
  | .alias anchor =>
    let jumps := (← get) + 1
    set jumps
    if focus.document.size * jumpsPerEvent < jumps then refuse .repetitionLimit
    match focus.document.anchor? anchor with
    | some node => pure { focus with node }
    | none => refuse .unknownAnchor
  | _ => pure focus

/-- A part of the node. -/
def part (focus : Focus) (step : Step) (node : Node) : Focus :=
  { focus with node, place := step :: focus.place, depth := focus.depth - 1 }

/-- The step to the value of a key. -/
def keyStep : Node → Step
  | .scalar _ text _ => .key text
  | _ => .unnamed

/-- Enters a list. -/
def enterItems (focus : Focus) (items : List Node) (whole : Bool) : Reading (Run Focus) :=
  if focus.depth == 0 then refuse .recursionLimit
  else
    pure ⟨items.zipIdx.map fun (node, index) => focus.part (.index index) node,
      focus.ending whole⟩

/-- Enters a table. A key stands at the place of the table. -/
def enterEntries (focus : Focus) (entries : List (Node × Node)) (whole : Bool) :
    Reading (Run (Focus × Focus)) :=
  if focus.depth == 0 then refuse .recursionLimit
  else pure ⟨entries.map fun (key, value) =>
    ({ focus with node := key, depth := focus.depth - 1 }, focus.part (keyStep key) value),
    focus.ending whole⟩

end Focus

/-- **What a scalar is found to be** where no text is asked for. The spelling decides for a scalar
without quotes, unless a tag does. -/
inductive Meaning where
  /-- Null. -/
  | null
  /-- A truth value. -/
  | flag (value : Bool)
  /-- A number. -/
  | number (value : Number)
  /-- A text. -/
  | text (value : String)

/-- The meaning of a spelling. -/
def Meaning.ofSpelling (text : String) : Meaning :=
  if text.isEmpty || Scalar.isNull text then .null
  else match Scalar.flag? text with
    | some value => .flag value
    | none =>
      match Scalar.integer? text with
      | some value =>
        if -twoPow 127 ≤ value && value < twoPow 128 then .number (.integer value)
        else match Scalar.float? text with
          | some value => .number (.float value)
          | none => .text text
      | none =>
        if Scalar.hasLeadingZeros text.toList then .text text
        else match Scalar.float? text with
          | some value => .number (.float value)
          | none => .text text

/-- **The meaning of a scalar.** A tag of the core schema asks for its type; a tag of one's own
leaves the spelling to decide, unless it is `settled` already. -/
def Meaning.ofScalar (settled : Bool) (tag : Option String) (text : String) (style : ScalarStyle) :
    Except Fault Meaning :=
  let wrong (expected : String) : Except Fault Meaning :=
    .error (.of (.invalidValue (.text text) expected))
  match if settled then none else tag with
  | none => pure (if style == .plain then .ofSpelling text else .text text)
  | some tag =>
    if tag == coreTag "bool" then
      match Scalar.flag? text with
      | some value => pure (.flag value)
      | none => wrong "a boolean"
    else if tag == coreTag "int" then
      match Scalar.integer? text with
      | some value =>
        if -twoPow 127 ≤ value && value < twoPow 128 then pure (.number (.integer value))
        else wrong "an integer"
      | none => wrong "an integer"
    else if tag == coreTag "float" then
      match Scalar.float? text with
      | some value => pure (.number (.float value))
      | none => wrong "a float"
    else if tag == coreTag "null" then
      if Scalar.isNull text then pure .null else wrong "null"
    else if tag.startsWith "!" && style == .plain then pure (.ofSpelling text)
    else pure (.text text)

/-- What a whole number is found to be. Those beyond 64 bits are described with their width. -/
def foundInteger (value : Int) : Found :=
  if value < -twoPow 63 then .other ("integer `" ++ toString value ++ "` as i128")
  else if value < 0 then .signed value
  else if value < twoPow 64 then .unsigned value.toNat
  else .other ("integer `" ++ toString value ++ "` as u128")

/-- What a meaning is found to be. -/
def Meaning.found : Meaning → Found
  | .null => .unit
  | .flag value => .flag value
  | .number (.integer value) => foundInteger value
  | .number (.float value) => .float value
  | .text value => .text value

/-- **A node of the wrong kind.** -/
def mismatch {α : Type} (node : Node) (expected : String) : Reading α :=
  match node with
  | .scalar tag text style =>
    match Meaning.ofScalar false tag text style with
    | .ok meaning => refuse (.invalidType meaning.found expected)
    | .error fault => throw fault
  | .sequence .. => refuse (.invalidType .sequence expected)
  | .mapping .. => refuse (.invalidType .mapping expected)
  | _ => refuse .endOfInput

/-- Whether a node stands for an empty list, table or record. -/
def Node.isBlank : Node → Bool
  | .void => true
  | .scalar _ text style => text.isEmpty && style == .plain
  | _ => false

/-- Whether a scalar may be read by its spelling as a value of a type with a core tag. -/
def isSpelled (typeTag : String) (tag : Option String) (style : ScalarStyle) : Bool :=
  style == .plain || (style == .literal && tag == some typeTag)

namespace Focus

/-- A text: the text of any scalar. -/
def text (expected : String) (focus : Focus) : Reading String :=
  atPlace focus.place do
    let focus ← focus.resolve
    match focus.node with
    | .scalar _ text _ => pure text
    | node => mismatch node expected

/-- A whole number of 32 bits. -/
def int32 (focus : Focus) : Reading Int32 :=
  atPlace focus.place do
    let focus ← focus.resolve
    match focus.node with
    | .scalar tag text style =>
      match if isSpelled (coreTag "int") tag style then Scalar.integer? text else none with
      | some value =>
        if fitsSigned 32 value then pure (Int32.ofInt value)
        else if fitsSigned 64 value then
          refuse (.invalidValue (.signed value) "i32")
        else mismatch focus.node "i32"
      | none => mismatch focus.node "i32"
    | node => mismatch node "i32"

/-- A truth value. -/
def flag (focus : Focus) : Reading Bool :=
  atPlace focus.place do
    let focus ← focus.resolve
    match focus.node with
    | .scalar tag text style =>
      match if isSpelled (coreTag "bool") tag style then Scalar.flag? text else none with
      | some value => pure value
      | none => mismatch focus.node "a boolean"
    | node => mismatch node "a boolean"

/-- One of several names. -/
def choice (names : List String) (focus : Focus) : Reading String :=
  atPlace focus.place do
    let name ← focus.text "string or map"
    if names.contains name then pure name else refuse (.unknownVariant name names)

/-- A value, unless there is none or a plain null. -/
def optional (focus : Focus) : Reading (Option Focus) := do
  let focus ← focus.resolve
  match focus.node with
  | .void => pure none
  | .scalar tag text .plain =>
    match tag with
    | none => pure (if text.isEmpty || Scalar.isNull text then none else some focus)
    | some tag =>
      if tag == coreTag "null" then
        if Scalar.isNull text then pure none else refuse (.invalidValue (.text text) "null")
      else pure (some focus)
  | _ => pure (some focus)

/-- The items of a list. -/
def items (focus : Focus) : Reading (Run Focus) := do
  let focus ← focus.resolve
  match focus.node with
  | .sequence _ items whole => focus.enterItems items whole
  | node => if node.isBlank then pure ⟨[], none⟩ else mismatch node "a sequence"

/-- The entries of a table. -/
def entries (focus : Focus) : Reading (Run (Focus × Focus)) := do
  let focus ← focus.resolve
  match focus.node with
  | .mapping _ entries whole => focus.enterEntries entries whole
  | node => if node.isBlank then pure ⟨[], none⟩ else mismatch node "a map"

/-- The fields of a record, which is given as a table. -/
def fields (title : String) (focus : Focus) : Reading (Fields Focus) := do
  let focus ← focus.resolve
  match focus.node with
  | .mapping _ entries whole => .named <$> focus.enterEntries entries whole
  | node => if node.isBlank then pure (.named ⟨[], none⟩) else mismatch node title

/-- Passes over a node, which must be complete. References in it are not followed. -/
def skip (focus : Focus) : Reading Unit :=
  if focus.node.isComplete then pure () else throw focus.document.breakFault

end Focus

instance : Source Focus where
  text := Focus.text
  int32 := Focus.int32
  flag := Focus.flag
  choice := Focus.choice
  optional := Focus.optional
  items := Focus.items
  entries := Focus.entries
  fields := Focus.fields
  surplus _ run := run.finish
  skip := Focus.skip
  within focus reading := atPlace focus.place reading

/-! ## Untyped values -/

/-- The tag of one's own that a node carries, without its mark. -/
def ownTag? : Option String → Option String
  | none => none
  | some tag =>
    match tag.toList with
    | ['!'] => some tag
    | '!' :: rest => some (String.ofList rest)
    | _ => none

/-- The tag of a node. -/
def Node.tag? : Node → Option String
  | .scalar tag _ _ => tag
  | .sequence tag _ _ => tag
  | .mapping tag _ _ => tag
  | _ => none

/-- Adds an entry to a table unless its key is there already. -/
def checkKey (entries : List (Value × Value)) (key : Value) : Reading Unit :=
  if entries.any fun entry => entry.1.same key then refuse (.duplicateEntry key.keyText)
  else pure ()

/-- The value of a meaning. Numbers beyond 64 bits are refused. -/
def Meaning.value : Meaning → Reading Value
  | .null => pure .null
  | .flag value => pure (.flag value)
  | .number (.integer value) =>
    if -twoPow 63 ≤ value && value < twoPow 64 then pure (.number (.integer value))
    else refuse (.invalidType (foundInteger value) "any YAML value")
  | .number (.float value) => pure (.number (.float value))
  | .text value => pure (.text value)

/-- Reads the entries of a table of any values. -/
def readValueEntries (read : Focus → Reading Value) :
    List (Focus × Focus) → List (Value × Value) → Reading (List (Value × Value))
  | [], done => pure done
  | (key, value) :: rest, done => do
    let key ← read key
    checkKey done key
    let value ← read value
    readValueEntries read rest (done ++ [(key, value)])

/-- **Reads any value**, entering at most the given number of levels. -/
def readValueAt : Nat → Focus → Reading Value
  | depth, focus =>
    atPlace focus.place do
      let focus ← focus.resolve
      let own := ownTag? focus.node.tag?
      let value ← match focus.node with
        | .scalar tag text style =>
          match Meaning.ofScalar own.isSome tag text style with
          | .ok meaning => meaning.value
          | .error fault => throw fault
        | .sequence _ items whole =>
          match depth with
          | 0 => refuse .recursionLimit
          | depth + 1 => do
            let run ← focus.enterItems items whole
            .list <$> readParts (readValueAt depth) run
        | .mapping _ entries whole =>
          match depth with
          | 0 => refuse .recursionLimit
          | depth + 1 => do
            let run ← focus.enterEntries entries whole
            let entries ← readValueEntries (readValueAt depth) run.parts []
            run.finish
            pure (.table entries)
        | _ => pure .null
      pure (match own with
        | some tag => .tagged tag value
        | none => value)

/-- **Any value.** -/
def readValue (focus : Focus) : Reading Value := readValueAt focus.depth focus

/-! ## Whole texts -/

/-- **Reads a text as one document.** What the reading does not notice is noticed afterwards: a
fault behind the part that was read, and a second document. -/
def read {α : Type} (reader : Focus → Reading α) (text : String) : Except Fault α := do
  let (document, more) := Document.ofText text.toList
  let focus : Focus := { node := document.root, place := [], depth := maxDepth, document }
  let value ← (reader focus).value
  if document.broken.isSome then throw document.breakFault
  if more then throw (.of .moreThanOneDocument)
  pure value

end Rulebook.Yaml
