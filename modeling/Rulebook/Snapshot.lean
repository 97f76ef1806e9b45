import Rulebook.Rule.Walk
import Rulebook.Status

/-!
# Loading the whole content

The content has a file that says what labels stand for and a directory for each of the two
categories. Below the directory of a category, at any depth, lie the directories of the rules. They
are found by a walk, on which links are not followed, though the directory of a category may itself
be reached through one.

The rules are loaded in the order of the walks, external ones first. What is then served is a
**snapshot**: the rules that were loaded, and the status of every rule directory. A name that
occurs again takes the place of the earlier one – in the statuses always, among the rules only when
it was loaded.

Loading fails only for want of the labels or of a category, or when a walk breaks off at a directory
that cannot be listed. No fault of a rule makes it fail.
-/

namespace Rulebook

open Files (Node World)

/-- **What is served**: the rules that were loaded and what became of every rule. -/
structure Snapshot where
  /-- The rules, and what their labels stand for. -/
  rules : Rules := {}
  /-- What became of every rule directory, by its name. -/
  status : StatusMap := ∅
deriving DecidableEq, Inhabited

namespace Snapshot

/-- How many rules were not loaded. -/
def failedCount (snapshot : Snapshot) : Nat :=
  (snapshot.status.values.filter (!·.isLoaded)).length

/-- Records what became of a rule directory. -/
def record (category : Category) (snapshot : Snapshot) (name : String) :
    Except Error Rule → Snapshot
  | .ok rule =>
    { rules := { snapshot.rules with rules := snapshot.rules.rules.insert name rule }
      status := snapshot.status.insert name (.loaded category) }
  | .error error =>
    { snapshot with status := snapshot.status.insert name (.failed category error.message) }

/-- Loads a rule and records what became of it. -/
def loadRule (root : Node) (codes : LabelCodes) (category : Category) (snapshot : Snapshot)
    (directory : Directory) : Snapshot :=
  snapshot.record category directory.name (Rule.load root codes directory)

/-- The directory that a path leads to. -/
def openDirectory (world : World) (path : String) : Except Error Directory :=
  match world.reach path with
  | .error fault => .error (.file path fault)
  | .ok position =>
    match position.node? world.root with
    | some (.directory entries) => pure ⟨position, path, entries⟩
    | some _ => .error (.file path (.other "not a directory"))
    | none => .error (.file path .notFound)

/-- Loads the rules of a category. -/
def loadCategory (world : World) (path : String) (codes : LabelCodes) (category : Category)
    (snapshot : Snapshot) : Except Error Snapshot := do
  let directory ← openDirectory world (Path.join path category.name)
  directory.walk.fold world.root (loadRule world.root codes category) snapshot

/-- Reads what labels stand for. -/
def loadCodes (world : World) (path : String) : Except Error LabelCodes :=
  match world.readText path with
  | .ok text => LabelCodes.ofYaml text
  | .error fault => .error (.file path fault)

/-- **Loads the content** at a path. -/
def load (world : World) (path : String) : Except Error Snapshot := do
  let codes ← loadCodes world (Path.join path labelCodesFile)
  let snapshot ← loadCategory world path codes .external { rules := { codes } }
  loadCategory world path codes .internal snapshot

end Snapshot

end Rulebook
