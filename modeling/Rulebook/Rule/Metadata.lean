import Rulebook.Error
import Rulebook.Rule.Basic
import Rulebook.Text.Blank
import Rulebook.Yaml.Source

/-!
# Metadata as authors write it

Authors write the metadata of an error key as a YAML table with labels for impact and resolution
risk. Any field may be left out or left empty; it is then empty, zero or without items. The
condition may be one text or a list of texts, which are joined by semicolons; any other shape is
refused, and of several wrong items the first is named.
-/

namespace Rulebook

open Rulebook.Document

/-- **Reads a YAML document.** A blank text stands for a default. -/
def readYaml {α : Type} (default : α) (reader : Yaml.Focus → Reading α) (fileName text : String) :
    Except Error α :=
  if Text.allBlank text then pure default
  else
    match Yaml.read reader text with
    | .ok value => pure value
    | .error fault =>
      .error (.parse (Error.withContext ("cannot parse " ++ fileName) fault.message) fault.message)

/-! ## Conditions -/

/-- **When a problem appears**, in one of the two accepted shapes. -/
inductive Condition where
  /-- One text. -/
  | text (value : String)
  /-- Several texts. -/
  | list (items : List String)
deriving DecidableEq, Repr

namespace Condition

/-- What stands between the texts of a list. -/
def separator : String := "; "

/-- **The condition as one text.** -/
def joined : Condition → String
  | .text value => value
  | .list items => separator.intercalate items

/-- The kind of a value, as a message names it. -/
def kindName : Yaml.Value → String
  | .null => "null"
  | .flag _ => "a boolean"
  | .number _ => "a number"
  | .text _ => "a string"
  | .list _ => "a list"
  | .table _ => "a mapping"
  | .tagged .. => "a tagged value"

/-- The refusal of a condition. -/
def refusal (message : String) (found : Yaml.Value) : Error :=
  .invalidItem "condition" (message ++ ", found " ++ kindName found)

/-- The texts of a list, all of whose items must be texts. -/
def itemTexts : List Yaml.Value → Except Error (List String)
  | [] => pure []
  | .text value :: rest => do return value :: (← itemTexts rest)
  | found :: _ => .error (refusal "list items must be strings" found)

/-- **The condition that a value is**; none for null. -/
def ofValue : Option Yaml.Value → Except Error (Option Condition)
  | none | some .null => pure none
  | some (.text value) => pure (some (.text value))
  | some (.list items) => do return some (.list (← itemTexts items))
  | some found => .error (refusal "expected a string or a list of strings" found)

end Condition

/-! ## The document -/

/-- **Metadata before its labels and its condition are resolved.** -/
structure WrittenMetadata where
  /-- When the problem appears. -/
  condition : Option Yaml.Value := none
  /-- What the problem is. -/
  description : String := ""
  /-- The label of the impact. -/
  impact : String := ""
  /-- How likely the problem is. -/
  likelihood : Int32 := 0
  /-- When it was published. -/
  publishDate : String := ""
  /-- The label of the resolution risk. -/
  resolutionRisk : String := ""
  /-- Whether the error key is in use. -/
  status : String := ""
  /-- The tags of the error key. -/
  tags : List String := []
deriving Inhabited

namespace WrittenMetadata

/-- A text that may be empty. -/
def readTextOr : Yaml.Focus → Reading String := readOr "" readText

/-- **Reads metadata as authors write it.** -/
def read : Yaml.Focus → Reading WrittenMetadata :=
  readRecord "struct ReceivedErrorKeyMetadata" {} [
    .optional "condition" (readOption Yaml.readValue)
      fun condition written => { written with condition },
    .optional "description" readTextOr fun description written => { written with description },
    .optional "impact" readTextOr fun impact written => { written with impact },
    .optional "likelihood" (readOr 0 Source.int32)
      fun likelihood written => { written with likelihood },
    .optional "publish_date" readTextOr fun publishDate written => { written with publishDate },
    .optional "resolution_risk" readTextOr
      fun resolutionRisk written => { written with resolutionRisk },
    .optional "status" readTextOr fun status written => { written with status },
    .optional "tags" (readOr [] readTexts) fun tags written => { written with tags }]

/-- **Resolves the condition and the labels.** A label that stands for nothing gets the number of
the unknown. -/
def resolve (written : WrittenMetadata) (codes : LabelCodes) : Except Error Metadata := do
  let condition ← Condition.ofValue written.condition
  pure {
    condition := (condition.map Condition.joined).getD ""
    description := written.description
    impact := ⟨written.impact, (codes.impact.get? written.impact).getD LabelCodes.unknown⟩
    likelihood := written.likelihood
    publishDate := written.publishDate
    resolutionRisk :=
      (codes.resolutionRisk.get? written.resolutionRisk).getD LabelCodes.unknown
    status := written.status
    tags := written.tags }

end WrittenMetadata

/-- The name of the file with the metadata of an error key. -/
def metadataFile : String := "metadata.yaml"

/-- **Reads the metadata of an error key.** -/
def Metadata.ofYaml (text : String) (codes : LabelCodes) : Except Error Metadata := do
  let written ← readYaml {} WrittenMetadata.read metadataFile text
  written.resolve codes

/-- The name of the file that says what labels stand for. -/
def labelCodesFile : String := "config.yaml"

/-- **Reads what labels stand for.** -/
def LabelCodes.ofYaml (text : String) : Except Error LabelCodes :=
  readYaml {} LabelCodes.read labelCodesFile text

/-- The name of the file with the facts about a plugin, which marks the directory of a rule. -/
def pluginFile : String := "plugin.yaml"

/-- **Reads the facts about a plugin.** -/
def Plugin.ofYaml (text : String) : Except Error Plugin := readYaml {} Plugin.read pluginFile text

end Rulebook
