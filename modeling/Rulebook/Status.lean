import Rulebook.Document.Source

/-!
# What became of a rule

For every rule directory that is found the service keeps a **status**: where the rule was found,
whether it was loaded, and why it was not. A rule that was not loaded has a reason, and a reason is
never empty; so the flag and the error text both say whether the rule was loaded. A status is made
by `Status.loaded` or `Status.failed`, or it is read from data, and data in which the two disagree
are refused.
-/

namespace Rulebook

open Rulebook.Document

/-- **Who may see a rule.** -/
inductive Category where
  /-- Everyone. -/
  | external
  /-- Those who maintain the service. -/
  | internal
deriving DecidableEq, Repr, Inhabited

namespace Category

/-- The name of a category, which is also the name of its directory. -/
def name : Category → String
  | .external => "external"
  | .internal => "internal"

/-- Both categories, in the order in which they are loaded. -/
def all : List Category := [.external, .internal]

/-- **Reads a category** by its name. -/
def read {σ : Type} [Source σ] (value : σ) : Reading Category := do
  let name ← Source.choice ["external", "internal"] value
  pure (if name == "internal" then .internal else .external)

end Category

/-- **What became of a rule.** -/
structure Status where
  /-- Where the rule was found. -/
  category : Category
  /-- Whether the rule was loaded. -/
  isLoaded : Bool
  /-- Why the rule was not loaded; empty when it was. -/
  error : String
deriving DecidableEq, Repr, Inhabited

namespace Status

/-- The status of a rule that was loaded. -/
def loaded (category : Category) : Status := ⟨category, true, ""⟩

/-- The reason that is shown when none is given. -/
def unknownError : String := "unknown parsing error"

/-- **The status of a rule that was not loaded.** An empty reason is replaced. -/
def failed (category : Category) (error : String) : Status :=
  ⟨category, false, if error.isEmpty then unknownError else error⟩

/-- The status as plain data. -/
def toData (status : Status) : Data :=
  .table [("type", .text status.category.name), ("loaded", .flag status.isLoaded),
    ("parsing_error", .text status.error)]

/-- The parts of a status before it is known whether they agree. -/
structure Parts where
  /-- Where the rule was found. -/
  category : Category := .external
  /-- Whether the rule was loaded. -/
  loaded : Bool := false
  /-- Why it was not. -/
  error : String := ""

/-- **Puts the parts together**, if they agree. -/
def ofParts (parts : Parts) : Reading Status :=
  match parts.loaded, parts.error.isEmpty with
  | true, true => pure (loaded parts.category)
  | false, false => pure (failed parts.category parts.error)
  | true, false => refuse (.inconsistent ("loaded rule carries a parsing error: " ++ parts.error))
  | false, true => refuse (.inconsistent "rule not loaded but parsing error is empty")

/-- **Reads a status.** -/
def read {σ : Type} [Source σ] (value : σ) : Reading Status := do
  let parts ← readRecord "struct StatusFields" ({} : Parts) [
    .mandatory "type" Category.read fun category parts => { parts with category },
    .mandatory "loaded" Source.flag fun loaded parts => { parts with loaded },
    .optional "parsing_error" readText fun error parts => { parts with error }] value
  ofParts parts

end Status

/-- **The status of every rule directory**, by its name. -/
abbrev StatusMap := Table Status

end Rulebook
