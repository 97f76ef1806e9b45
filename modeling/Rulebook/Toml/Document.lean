import Rulebook.Table
import Rulebook.Toml.Lexeme

/-!
# Documents of TOML

A document is a list of statements, one a line. A pair gives a value to a key; a header says in
which table the pairs that follow it stand. A key of several names leads through tables, which come
into being on the way.

What may be written twice is decided by how a table came into being, its **birth**. A table that a
header names is given by that header alone; one that a header only led through may still get a
header of its own; one that the key of a pair led through takes further pairs, but no header. A
table or list that is a value is complete as it stands. A header in double brackets adds a table to
a list of tables, and a key that leads through such a list leads through the last of them.
-/

namespace Rulebook.Toml

open Rulebook.Decimal (Binary64)

/-- **A value of a document.** -/
inductive Value where
  /-- A truth value. -/
  | flag (value : Bool)
  /-- A whole number of 64 bits. -/
  | integer (value : Int)
  /-- A number with a point or an exponent. -/
  | float (value : Binary64)
  /-- A text. -/
  | text (value : String)
  /-- A moment in time, as it is written. -/
  | moment (written : String)
  /-- A list. -/
  | list (items : List Value)
  /-- A table, the keys ascending. -/
  | table (entries : List (String × Value))
deriving Inhabited

/-- **How a table came into being.** -/
inductive Birth where
  /-- A header led through it. -/
  | passed
  /-- The key of a pair led through it. -/
  | dotted
  /-- A header names it. -/
  | named
deriving DecidableEq

/-- **A part of a document that is still being read.** -/
inductive Item where
  /-- A value, which is complete. -/
  | value (value : Value)
  /-- A table that may still grow. -/
  | table (birth : Birth) (entries : List (String × Item))
  /-- A list of tables, the last one first. -/
  | tables (all : List (List (String × Item)))
deriving Inhabited

/-- **Why a document is refused.** -/
inductive Flaw where
  /-- The characters spell no statement; the line they stand in. -/
  | malformed (line : Nat)
  /-- A key is given twice. -/
  | redefined (key : String)
deriving DecidableEq, Repr

/-- The words for a flaw. -/
def Flaw.message : Flaw → String
  | .malformed line => "the statement in line " ++ toString line ++ " is not well-formed"
  | .redefined key => "the key '" ++ key ++ "' is given twice"

/-! ## Building -/

namespace Item

/-- The entries of a part of a document that may grow. -/
abbrev Entries := List (String × Item)

/-- Puts a part under a key, in front of no other with this key. -/
def put (key : String) (item : Item) (entries : Entries) : Entries := Table.place key item entries

/-- **Changes the table that a key leads to.** `birth` is how tables come into being on the way;
through one that a header names, only a header leads. The change is told how the table at the end
came into being. -/
def change (birth : Birth) (f : Birth → Entries → Except Flaw Entries) :
    List String → Birth → Entries → Except Flaw Entries
  | [], here, entries => f here entries
  | key :: keys, _, entries =>
    match Table.find? key entries with
    | none => do
      let inner ← change birth f keys birth []
      pure (put key (.table birth inner) entries)
    | some (.value _) => throw (.redefined key)
    | some (.tables all) => do
      let inner ← change birth f keys .named (all.head?.getD [])
      pure (put key (.tables (inner :: all.drop 1)) entries)
    | some (.table here inner) =>
      if birth = .dotted && here = .named then throw (.redefined key)
      else do
        let inner ← change birth f keys here inner
        pure (put key (.table here inner) entries)

/-- **Adds a pair** to the entries of a table. -/
def addPair (keys : List String) (value : Value) (entries : Entries) : Except Flaw Entries :=
  let last := keys.getLast?.getD ""
  let way := keys.dropLast
  change .dotted (fun birth entries =>
    if (!way.isEmpty && birth != .dotted) || (Table.find? last entries).isSome then
      throw (.redefined last)
    else pure (put last (.value value) entries)) way .named entries

/-- **Adds a table that a header names.** -/
def addTable (keys : List String) (entries : Entries) : Except Flaw Entries :=
  let last := keys.getLast?.getD ""
  change .passed (fun _ entries =>
    match Table.find? last entries with
    | none => pure (put last (.table .named []) entries)
    | some (.table .passed inner) => pure (put last (.table .named inner) entries)
    | some _ => throw (.redefined last)) keys.dropLast .named entries

/-- **Adds a table to a list of tables.** -/
def addToTables (keys : List String) (entries : Entries) : Except Flaw Entries :=
  let last := keys.getLast?.getD ""
  change .passed (fun _ entries =>
    match Table.find? last entries with
    | none => pure (put last (.tables [[]]) entries)
    | some (.tables all) => pure (put last (.tables ([] :: all)) entries)
    | some _ => throw (.redefined last)) keys.dropLast .named entries

mutual

/-- The value of a part that does not grow any more. -/
def toValue : Item → Value
  | .value complete => complete
  | .table _ entries => .table (entriesToValues entries)
  | .tables all => .list (tablesToValues all).reverse

/-- The values of entries. -/
def entriesToValues : List (String × Item) → List (String × Value)
  | [] => []
  | (key, item) :: rest => (key, item.toValue) :: entriesToValues rest

/-- The values of tables. -/
def tablesToValues : List (List (String × Item)) → List Value
  | [] => []
  | entries :: rest => .table (entriesToValues entries) :: tablesToValues rest

end

end Item

/-! ## Values -/

/-- How deep lists and tables may be nested in a value. -/
def maxDepth : Nat := 80

/-- Why a value cannot be read: the characters at which none is spelled, or a key given twice. -/
abbrev ValueFlaw := List Char ⊕ Flaw

/-- Reads on, or stops at the given characters. -/
def orStop {α : Type} (chars : List Char) (read : Option α) : Except ValueFlaw α :=
  match read with
  | some result => pure result
  | none => throw (.inl chars)

/-- A value without parts. -/
def readScalar (chars : List Char) : Option (Value × List Char) :=
  match chars with
  | 't' :: 'r' :: 'u' :: 'e' :: rest => some (.flag true, rest)
  | 'f' :: 'a' :: 'l' :: 's' :: 'e' :: rest => some (.flag false, rest)
  | '"' :: _ | '\x27' :: _ => (readString chars).map fun (text, rest) => (.text text, rest)
  | chars =>
    match readMoment chars with
    | some (written, rest) => some (.moment written, rest)
    | none =>
      match readFloat chars with
      | some (value, rest) => some (.float value, rest)
      | none => (readInteger chars).map fun (value, rest) => (.integer value, rest)

mutual

/-- **Reads a value.** `fuel` bounds the steps and `depth` the nesting. -/
def readValue : Nat → Nat → List Char → Except ValueFlaw (Value × List Char)
  | 0, _, chars => throw (.inl chars)
  | fuel + 1, depth, chars =>
    match chars with
    | '[' :: rest =>
      if depth = 0 then throw (.inl chars)
      else do
        let (items, rest) ← readItems fuel (depth - 1) rest
        pure (.list items, rest)
    | '\x7b' :: rest =>
      if depth = 0 then throw (.inl chars)
      else
        match dropSpaces rest with
        | '\x7d' :: rest => pure (.table [], rest)
        | rest => do
          let (entries, rest) ← readPairs fuel (depth - 1) rest []
          pure (.table (Item.entriesToValues entries), rest)
    | chars => orStop chars (readScalar chars)

/-- Reads the items of a list up to its end. -/
def readItems : Nat → Nat → List Char → Except ValueFlaw (List Value × List Char)
  | 0, _, chars => throw (.inl chars)
  | fuel + 1, depth, chars =>
    match dropGap chars.length chars with
    | ']' :: rest => pure ([], rest)
    | chars => do
      let (item, rest) ← readValue fuel depth chars
      match dropGap rest.length rest with
      | ',' :: rest =>
        let (items, rest) ← readItems fuel depth rest
        pure (item :: items, rest)
      | ']' :: rest => pure ([item], rest)
      | rest => throw (.inl rest)

/-- Reads the pairs of a table in braces up to its end, adding them to those before. -/
def readPairs : Nat → Nat → List Char → Item.Entries → Except ValueFlaw (Item.Entries × List Char)
  | 0, _, chars, _ => throw (.inl chars)
  | fuel + 1, depth, chars, done => do
    let (keys, rest) ← orStop chars (readKey chars)
    match rest with
    | '=' :: rest =>
      let (value, rest) ← readValue fuel depth (dropSpaces rest)
      match Item.addPair keys value done with
      | .error flaw => throw (.inr flaw)
      | .ok done =>
        match dropSpaces rest with
        | ',' :: rest => readPairs fuel depth rest done
        | '\x7d' :: rest => pure (done, rest)
        | rest => throw (.inl rest)
    | rest => throw (.inl rest)

end

/-! ## Statements -/

/-- **A statement.** -/
inductive Statement where
  /-- A value for a key. -/
  | pair (keys : List String) (value : Value)
  /-- A header. -/
  | header (keys : List String)
  /-- A header in double brackets. -/
  | element (keys : List String)

/-- Drops what may stand behind a statement, up to the end of its line. -/
def finishLine? (chars : List Char) : Option (List Char) :=
  match dropComment (dropSpaces chars) with
  | [] => some []
  | rest => dropLineEnd? rest

/-- Reads a statement without what may stand behind it. -/
def readStatement (chars : List Char) : Except ValueFlaw (Statement × List Char) :=
  match chars with
  | '[' :: '[' :: rest => do
    let (keys, rest) ← orStop rest (readKey rest)
    match rest with
    | ']' :: ']' :: rest => pure (.element keys, rest)
    | rest => throw (.inl rest)
  | '[' :: rest => do
    let (keys, rest) ← orStop rest (readKey rest)
    match rest with
    | ']' :: rest => pure (.header keys, rest)
    | rest => throw (.inl rest)
  | chars => do
    let (keys, rest) ← orStop chars (readKey chars)
    match rest with
    | '=' :: rest =>
      let rest := dropSpaces rest
      let (value, rest) ← readValue (2 * rest.length + 2) (maxDepth - 1) rest
      pure (.pair keys value, rest)
    | rest => throw (.inl rest)

/-- Carries out a statement. `way` leads to the table that pairs are added to. -/
def Statement.apply (way : List String) (entries : Item.Entries) :
    Statement → Except Flaw (List String × Item.Entries)
  | .header keys => (fun entries => (keys, entries)) <$> Item.addTable keys entries
  | .element keys => (fun entries => (keys, entries)) <$> Item.addToTables keys entries
  | .pair keys value =>
    (fun entries => (way, entries)) <$>
      Item.change .passed (fun _ => Item.addPair keys value) way .named entries

/-- Reads statements and carries them out. -/
def readStatements : Nat → List Char → List String → Item.Entries →
    Except ValueFlaw Item.Entries
  | 0, _, _, entries => pure entries
  | fuel + 1, chars, way, entries =>
    match dropSpaces chars with
    | [] => pure entries
    | chars@('#' :: _) | chars@('\n' :: _) | chars@('\r' :: _) => do
      let rest ← orStop chars (finishLine? chars)
      readStatements fuel rest way entries
    | chars => do
      let (statement, rest) ← readStatement chars
      match statement.apply way entries with
      | .error flaw => throw (.inr flaw)
      | .ok (way, entries) =>
        let rest ← orStop rest (finishLine? rest)
        readStatements fuel rest way entries

/-- The number of the line in which the rest of a text starts. -/
def lineOf (whole rest : List Char) : Nat :=
  (whole.take (whole.length - rest.length)).count '\n' + 1

/-- **Reads a document**, whose text may start with a byte order mark. -/
def read (text : String) : Except Flaw (List (String × Value)) :=
  let chars := match text.toList with
    | '\uFEFF' :: rest => rest
    | chars => chars
  match readStatements (chars.length + 1) chars [] [] with
  | .ok entries => pure (Item.entriesToValues entries)
  | .error (.inl rest) => throw (.malformed (lineOf chars rest))
  | .error (.inr flaw) => throw flaw

end Rulebook.Toml
