import Rulebook.Group
import Rulebook.Rule.Directory

/-!
# Checking the content

Content that can be loaded may still be poor: groups may share names and tags, texts may be blank,
and the tags of error keys may be repeated or belong to no group. The check lists such **findings**.
A blank text is a warning, and so is anything about groups; a wrong tag is an error.

Of groups with one name, and of places with one tag, the first in the order of the groups is the
owner, and every later one is reported with the owner's name.
-/

namespace Rulebook

/-- **How serious a finding is.** -/
inductive Severity where
  /-- Something to look at. -/
  | warning
  /-- Something to mend. -/
  | error
deriving DecidableEq, Repr

/-- The word for a severity. -/
def Severity.name : Severity → String
  | .warning => "warning"
  | .error => "error"

/-- **Something that the check has found.** -/
structure Finding where
  /-- How serious it is. -/
  severity : Severity
  /-- What it is about. -/
  subject : String
  /-- What is the matter. -/
  message : String
deriving DecidableEq, Repr

namespace Finding

/-- The finding on one line. -/
def text (finding : Finding) : String :=
  "[" ++ finding.severity.name ++ "] " ++ finding.subject ++ ": " ++ finding.message

/-- Whether the finding is an error. -/
def isError (finding : Finding) : Bool := finding.severity == .error

end Finding

namespace Check

/-! ## Groups -/

/-- **What has an owner so far**: names with the keys of the groups that had them first, tags with
the names of the groups that listed them first. -/
structure Owners where
  /-- The key of the first group with a name. -/
  names : Table String := ∅
  /-- The name of the first group with a tag. -/
  tags : Table String := ∅

/-- Checks the name of a group. -/
def checkName (owners : Owners) (key : String) (group : Group) : Owners × List Finding :=
  match owners.names.get? group.name with
  | some first =>
    (owners, [⟨.warning, "group '" ++ key ++ "'",
      "multiple groups with the name '" ++ group.name ++ "' (first with key '" ++ first ++ "')"⟩])
  | none => ({ owners with names := owners.names.insert group.name key }, [])

/-- Checks one tag of a group. -/
def checkTag (groupName : String) (owners : Owners) (tag : String) : Owners × List Finding :=
  match owners.tags.get? tag with
  | some first =>
    (owners, [⟨.warning, "group '" ++ groupName ++ "'",
      "tag '" ++ tag ++ "' is already defined in group '" ++ first ++ "'"⟩])
  | none => ({ owners with tags := owners.tags.insert tag groupName }, [])

/-- Checks the tags of a group one after the other. -/
def checkTags (groupName : String) : Owners → List String → Owners × List Finding
  | owners, [] => (owners, [])
  | owners, tag :: rest =>
    let (owners, found) := checkTag groupName owners tag
    let (owners, more) := checkTags groupName owners rest
    (owners, found ++ more)

/-- Checks groups one after the other. -/
def checkGroups : Owners → List (String × Group) → List Finding
  | _, [] => []
  | owners, (key, group) :: rest =>
    let (owners, found) := checkName owners key group
    let (owners, more) := checkTags group.name owners group.tags
    found ++ more ++ checkGroups owners rest

/-- **The findings about groups.** -/
def groups (catalog : GroupCatalog) : List Finding := checkGroups {} catalog.entries

/-! ## Rules -/

/-- A warning about a text that is blank. -/
def blank (subject what value : String) : List Finding :=
  if Text.allBlank value then [⟨.warning, subject, what ++ " is empty"⟩] else []

/-- What a fact about a plugin or an error key is called. -/
def factName (name : String) : String := "attribute '" ++ name ++ "'"

/-- What the text of a file is called. -/
def contentFile (name : String) : String := "content file '" ++ name ++ "'"

/-- Checks the tags of an error key. `seen` are the tags before. -/
def checkKeyTags (known : List String) (subject : String) : List String → List String → List Finding
  | _, [] => []
  | seen, tag :: rest =>
    (if seen.contains tag then [⟨.error, subject, "duplicate tag '" ++ tag ++ "'"⟩]
      else if known.contains tag then []
      else [⟨.error, subject, "invalid tag '" ++ tag ++ "' is not defined by any group"⟩]) ++
      checkKeyTags known subject (tag :: seen) rest

/-- **The findings about an error key.** -/
def errorKey (known : List String) (subject : String) (key : ErrorKey) : List Finding :=
  blank subject (contentFile genericFile) key.texts.generic ++
  blank subject (factName "condition") key.metadata.condition ++
  blank subject (factName "description") key.metadata.description ++
  blank subject (factName "impact") key.metadata.impact.name ++
  blank subject (factName "publish_date") key.metadata.publishDate ++
  blank subject (factName "status") key.metadata.status ++
  checkKeyTags known subject [] key.metadata.tags

/-- **The findings about a rule.** -/
def rule (known : List String) (name : String) (rule : Rule) : List Finding :=
  let subject := "rule '" ++ name ++ "'"
  blank subject (factName "name") rule.plugin.name ++
  blank subject (factName "node_id") rule.plugin.nodeId ++
  blank subject (factName "product_code") rule.plugin.productCode ++
  blank subject (factName "python_module") rule.plugin.pythonModule ++
  blank subject (contentFile moreInfoFile) rule.texts.moreInfo ++
  blank subject (contentFile reasonFile) rule.texts.reason ++
  blank subject (contentFile resolutionFile) rule.texts.resolution ++
  blank subject (contentFile summaryFile) rule.texts.summary ++
  (if rule.errorKeys.entries.isEmpty then
    [⟨.warning, subject, "rule contains no error key"⟩] else []) ++
  rule.errorKeys.entries.flatMap fun (keyName, key) =>
    errorKey known ("error key '" ++ name ++ "|" ++ keyName ++ "'") key

/-- **The findings about rules.** -/
def content (catalog : GroupCatalog) (rules : Rules) : List Finding :=
  rules.rules.entries.flatMap fun (name, found) => rule catalog.tags name found

/-- **All findings**, those about groups first. -/
def all (catalog : GroupCatalog) (rules : Rules) : List Finding :=
  groups catalog ++ content catalog rules

end Check

end Rulebook
