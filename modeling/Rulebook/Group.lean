import Rulebook.Document.Source
import Rulebook.Error
import Rulebook.Files.Tree
import Rulebook.Text.Blank
import Rulebook.Yaml.Source

/-!
# Groups

A **group** gathers rules by their tags, so that a reader can be shown the rules about one subject
together. The groups of a service are written in one YAML document, a table from keys to groups;
the keys order the groups and are not shown.

Names and tags need not be distinct across groups. That they had better be is a matter for the
check of the content.
-/

namespace Rulebook

open Rulebook.Document

/-- **A named set of tags.** -/
structure Group where
  /-- What the group is called. -/
  name : String := ""
  /-- What it is about. -/
  description : String := ""
  /-- The tags of its rules. -/
  tags : List String := []
deriving DecidableEq, Repr, Inhabited

namespace Group

/-- Whether the group lists a tag. -/
def hasTag (group : Group) (tag : String) : Bool := group.tags.contains tag

/-- The group as plain data. -/
def toData (group : Group) : Data :=
  .table [("name", .text group.name), ("description", .text group.description),
    ("tags", .ofTexts group.tags)]

/-- **Reads a group.** What it lacks is empty. -/
def read {σ : Type} [Source σ] (value : σ) : Reading Group :=
  readRecord "struct Group" {} [
    .optional "name" readText fun name group => { group with name },
    .optional "description" readText fun description group => { group with description },
    .optional "tags" readTexts fun tags group => { group with tags }] value

end Group

/-- **The groups of a service** by their keys. -/
abbrev GroupCatalog := Table Group

namespace GroupCatalog

/-- The groups in the order of their keys. -/
def groups (catalog : GroupCatalog) : List Group := catalog.values

/-- All tags of all groups, group by group. -/
def tags (catalog : GroupCatalog) : List String := catalog.values.flatMap (·.tags)

/-- **Reads the groups from YAML.** A blank text has none. -/
def ofYaml (text : String) : Except Error GroupCatalog :=
  if Text.allBlank text then pure ∅
  else
    match Yaml.read (readTable Group.read) text with
    | .ok catalog => pure catalog
    | .error fault =>
      .error (.parse (Error.withContext "cannot parse group configuration" fault.message)
        fault.message)

/-- **Reads the groups from a file.** -/
def load (world : Files.World) (path : String) : Except Error GroupCatalog :=
  match world.readText path with
  | .ok text => ofYaml text
  | .error fault => .error (.file path fault)

end GroupCatalog

end Rulebook
