import Rulebook.Files.Tree
import Rulebook.Settings.Value
import Rulebook.Toml.Document
import Rulebook.Yaml.Source

/-!
# Settings from a file

A file of settings is written in TOML or in YAML; its extension decides. Both become values. A
moment in time, which no setting has, becomes a table with a name of its own.
-/

namespace Rulebook.Settings

open Rulebook.Document

/-- **The language of a file of settings.** -/
inductive Format where
  /-- TOML. -/
  | toml
  /-- YAML. -/
  | yaml
deriving DecidableEq, Repr

/-- The name of a language. -/
def Format.name : Format → String
  | .toml => "TOML"
  | .yaml => "YAML"

/-- **The language of a file**, by the extension of its name in letters of either case. -/
def Format.ofPath (path : String) : Format :=
  match Path.extension? path with
  | none => .toml
  | some extension =>
    let lower := extension.toLower
    if lower == "yaml" || lower == "yml" then .yaml else .toml

namespace Value

mutual

/-- The values of a value of TOML. -/
def ofToml : Toml.Value → Value
  | .flag value => .flag value
  | .integer value => .signed value
  | .float value => .float value
  | .text value => .text value
  | .moment written => .table [("$__toml_private_datetime", .text written)]
  | .list items => .list (itemsOfToml items)
  | .table entries => .table (entriesOfToml entries)

/-- The values of items of TOML. -/
def itemsOfToml : List Toml.Value → List Value
  | [] => []
  | item :: rest => ofToml item :: itemsOfToml rest

/-- The values of entries of TOML. -/
def entriesOfToml : List (String × Toml.Value) → List (String × Value)
  | [] => []
  | (key, value) :: rest => (key, ofToml value) :: entriesOfToml rest

end

/-- The value of a scalar of YAML. -/
def ofMeaning : Yaml.Meaning → Value
  | .null => .unit
  | .flag value => .flag value
  | .number (.integer value) => if value < 0 then .signed value else .unsigned value.toNat
  | .number (.float value) => .float value
  | .text value => .text value

/-- **Reads a value of YAML**, entering at most the given number of levels. A tag of one's own has
no meaning for settings. -/
def ofYamlAt : Nat → Yaml.Focus → Reading Value
  | depth, focus =>
    atPlace focus.place do
      let focus ← focus.resolve
      if (Yaml.ownTag? focus.node.tag?).isSome then
        refuse (.invalidType .tagged "any valid value")
      match focus.node with
      | .scalar tag spelling style =>
        match Yaml.Meaning.ofScalar false tag spelling style with
        | .ok meaning => pure (ofMeaning meaning)
        | .error fault => throw fault
      | .sequence _ items whole =>
        match depth with
        | 0 => refuse .recursionLimit
        | depth + 1 => do
          let run ← focus.enterItems items whole
          .list <$> readParts (ofYamlAt depth) run
      | .mapping _ entries whole =>
        match depth with
        | 0 => refuse .recursionLimit
        | depth + 1 => do
          let run ← focus.enterEntries entries whole
          let table ← readEntries (ofYamlAt depth) run.parts ∅
          run.finish
          pure (.table table.entries)
      | _ => pure .unit

/-- Reads a value of YAML. -/
def ofYaml (focus : Yaml.Focus) : Reading Value := ofYamlAt focus.depth focus

/-- **Reads a text in a language.** A failure is given in words. -/
def ofText (text : String) : Format → Except String Value
  | .toml =>
    match Toml.read text with
    | .ok entries => pure (.table (entriesOfToml entries))
    | .error flaw => throw flaw.message
  | .yaml =>
    match Yaml.read (readTable ofYaml) text with
    | .ok read => pure (.table read.entries)
    | .error fault => throw fault.message

end Value

end Rulebook.Settings
