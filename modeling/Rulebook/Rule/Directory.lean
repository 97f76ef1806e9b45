import Rulebook.Files.Tree
import Rulebook.Rule.Metadata

/-!
# The directory of a rule

A rule is kept in a directory with a file about its plugin, five optional files with its texts, and
a directory for each of its error keys, which holds the metadata of the error key and the same five
optional files.

A text that an error key does not have itself it takes over from the rule. After that it must have
a short description and a reason. A rule is loaded as a whole or not at all: the plugin is read
first, then the error keys in the order of their names, and the first failure is the failure of the
rule. Error keys that lack a text are reported together.
-/

namespace Rulebook

open Files (Node Position World)

/-- **A directory in a world**: the position where it is, the path by which it was come to, and
what it holds. -/
structure Directory extends Position where
  /-- The path by which it was come to. -/
  path : String
  /-- What it holds. -/
  entries : List (String × Node)

namespace Directory

/-- The name of the directory. -/
def name (directory : Directory) : String := directory.place.headD ""

/-- The path of something in the directory. -/
def pathOf (directory : Directory) (name : String) : String := Path.join directory.path name

/-- What a name in the directory leads to, links being followed. The path of what is looked for
must not be too long. -/
def resolve? (root : Node) (directory : Directory) (name : String) : Option Node :=
  if Path.fits (directory.pathOf name) then
    match World.follow root directory.toPosition [name] with
    | .ok position => position.node? root
    | .error _ => none
  else none

/-- The text of a file in the directory; malformed stretches are replaced. -/
def text? (root : Node) (directory : Directory) (name : String) : Option String :=
  match directory.resolve? root name with
  | some (.file bytes) => some (Text.decodeLenient bytes)
  | _ => none

/-- The text of a file in the directory, empty when there is none. -/
def text (root : Node) (directory : Directory) (name : String) : String :=
  (directory.text? root name).getD ""

/-- The directory that an entry of the directory is, if it is one. A link is none. -/
def child? (directory : Directory) : String × Node → Option Directory
  | (name, .directory entries) =>
    some ⟨⟨name :: directory.place, directory.links⟩, directory.pathOf name, entries⟩
  | _ => none

/-- The directory with its entries in the order of their names. -/
def listed (directory : Directory) : Directory :=
  { directory with entries := Node.listing directory.entries }

/-- The directories among the entries, in the order in which these stand. -/
def children (directory : Directory) : List Directory :=
  directory.entries.filterMap directory.child?

/-- **The directories that the directory holds**, in the order of their names. -/
def subdirectories (directory : Directory) : List Directory := directory.listed.children

/-- **Whether the directory is that of a rule**: whether the file about the plugin is there. -/
def isRule (root : Node) (directory : Directory) : Bool :=
  match directory.resolve? root pluginFile with
  | some (.file _) => true
  | _ => false

/-- Whether the directory can be listed: its path must not be too long. -/
def isListable (directory : Directory) : Bool := Path.fits directory.path

/-- The error about a directory that cannot be listed. -/
def unlistable (directory : Directory) : Error := .file directory.path .nameTooLong

end Directory

/-! ## Texts -/

/-- The name of the file with the short description. -/
def genericFile : String := "generic.md"

/-- The name of the file with the longer description. -/
def summaryFile : String := "summary.md"

/-- The name of the file with the reason. -/
def reasonFile : String := "reason.md"

/-- The name of the file with the resolution. -/
def resolutionFile : String := "resolution.md"

/-- The name of the file with further reading. -/
def moreInfoFile : String := "more_info.md"

namespace Texts

/-- **The texts that a directory has itself.** -/
def ofDirectory (root : Node) (directory : Directory) : Texts :=
  let reason := directory.text root reasonFile
  { generic := directory.text root genericFile
    summary := directory.text root summaryFile
    reason
    hasReason := !reason.isEmpty
    resolution := directory.text root resolutionFile
    moreInfo := directory.text root moreInfoFile }

/-- A text, or another one in its place when it is empty. -/
def orElse (own other : String) : String := if own.isEmpty then other else own

/-- **Takes over the texts that are missing.** -/
def inherit (own rule : Texts) : Texts :=
  { own with
    generic := orElse own.generic rule.generic
    summary := orElse own.summary rule.summary
    reason := orElse own.reason rule.reason
    resolution := orElse own.resolution rule.resolution
    moreInfo := orElse own.moreInfo rule.moreInfo }

/-- The files of the texts that must not be missing and are. -/
def missing (texts : Texts) : List String :=
  (if texts.generic.isEmpty then [genericFile] else []) ++
    (if texts.reason.isEmpty then [reasonFile] else [])

end Texts

/-! ## Error keys -/

/-- **Loads an error key** from its directory. -/
def ErrorKey.load (root : Node) (codes : LabelCodes) (directory : Directory) :
    Except Error ErrorKey := do
  match directory.text? root metadataFile with
  | none => .error (.missingMandatoryFile metadataFile)
  | some text =>
    let metadata ← Metadata.ofYaml text codes
    pure { texts := Texts.ofDirectory root directory, metadata }

/-- Loads error keys one after the other. -/
def ErrorKey.loadAll (root : Node) (codes : LabelCodes) :
    List Directory → Except Error (List (String × ErrorKey))
  | [] => pure []
  | directory :: rest => do
    let key ← ErrorKey.load root codes directory
    return (directory.name, key) :: (← ErrorKey.loadAll root codes rest)

/-! ## Rules -/

namespace Rule

/-- An error key with what it lacks, as a message lists it. -/
def incompleteText (name : String) (missing : List String) : String :=
  name ++ " (" ++ ", ".intercalate missing ++ ")"

/-- The error keys that lack a text, with what they lack. -/
def incomplete (keys : Table ErrorKey) : List String :=
  keys.entries.filterMap fun (name, key) =>
    let missing := key.texts.missing
    if missing.isEmpty then none else some (incompleteText name missing)

/-- The failure of a rule whose error keys lack texts. -/
def incompleteError (keys : List String) : Error :=
  .invalidContent ("some of the error keys are missing mandatory attributes: " ++
    ", ".intercalate keys)

/-- The error keys of a rule, with the texts that they take over from it. -/
def inheritAll (texts : Texts) (keys : List (String × ErrorKey)) : Table ErrorKey :=
  (Table.ofList keys).map fun key => { key with texts := key.texts.inherit texts }

/-- **Loads a rule** from its directory. -/
def load (root : Node) (codes : LabelCodes) (directory : Directory) : Except Error Rule := do
  match directory.text? root pluginFile with
  | none => .error (.missingMandatoryFile pluginFile)
  | some text =>
    let plugin ← Plugin.ofYaml text
    let texts := Texts.ofDirectory root directory
    let keys ← ErrorKey.loadAll root codes directory.subdirectories
    let errorKeys := inheritAll texts keys
    match incomplete errorKeys with
    | [] => pure { texts, plugin, errorKeys }
    | lacking => .error (incompleteError lacking)

end Rule

end Rulebook
