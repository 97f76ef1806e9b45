import Rulebook.Document.Source

/-!
# Rules and their content

A **rule** describes a problem that can be recognised in a system. It has texts for its readers,
facts about the plugin that recognises it, and one or more **error keys**, the forms in which the
problem can appear. An error key has texts of its own, of the same five kinds, and metadata.

In metadata an impact and a resolution risk are named by labels. What number a label stands for is
said once for all rules, by `LabelCodes`.

Each type says here how it is laid out as plain data and how it is read from a document; the two
name the same fields in the same order.
-/

namespace Rulebook

open Rulebook.Document

/-! ## Labels -/

/-- **What labels stand for.** -/
structure LabelCodes where
  /-- The number of each label of an impact. -/
  impact : Table Int32 := ∅
  /-- The number of each label of a resolution risk. -/
  resolutionRisk : Table Int32 := ∅
deriving DecidableEq, Inhabited

namespace LabelCodes

/-- The number of an unknown label. -/
def unknown : Int32 := 0

/-- A number as plain data. -/
def codeData (code : Int32) : Data := .integer code.toInt

/-- The labels as plain data. -/
def toData (codes : LabelCodes) : Data :=
  .table [("impact", .ofTable codeData codes.impact),
    ("resolution_risk", .ofTable codeData codes.resolutionRisk)]

/-- **Reads what labels stand for.** -/
def read {σ : Type} [Source σ] (value : σ) : Reading LabelCodes :=
  readRecord "struct GlobalRuleConfig" {} [
    .optional "impact" (readTable Source.int32) fun impact codes => { codes with impact },
    .optional "resolution_risk" (readTable Source.int32)
      fun resolutionRisk codes => { codes with resolutionRisk }] value

end LabelCodes

/-! ## Plugins -/

/-- **The plugin that recognises a rule.** -/
structure Plugin where
  /-- The name of the rule. -/
  name : String := ""
  /-- Its article in the knowledge base. -/
  nodeId : String := ""
  /-- The product it is about. -/
  productCode : String := ""
  /-- The module that implements it. -/
  pythonModule : String := ""
deriving DecidableEq, Inhabited

namespace Plugin

/-- The plugin as plain data. -/
def toData (plugin : Plugin) : Data :=
  .table [("name", .text plugin.name), ("node_id", .text plugin.nodeId),
    ("product_code", .text plugin.productCode), ("python_module", .text plugin.pythonModule)]

/-- **Reads a plugin.** What it lacks is empty. -/
def read {σ : Type} [Source σ] (value : σ) : Reading Plugin :=
  readRecord "struct RulePluginInfo" {} [
    .optional "name" readText fun name plugin => { plugin with name },
    .optional "node_id" readText fun nodeId plugin => { plugin with nodeId },
    .optional "product_code" readText fun productCode plugin => { plugin with productCode },
    .optional "python_module" readText fun pythonModule plugin => { plugin with pythonModule }]
    value

end Plugin

/-! ## Metadata -/

/-- **An impact**: its label and the number it stands for. -/
structure Impact where
  /-- The label. -/
  name : String := ""
  /-- The number. -/
  code : Int32 := 0
deriving DecidableEq, Inhabited

namespace Impact

/-- The impact as plain data. -/
def toData (impact : Impact) : Data :=
  .table [("name", .text impact.name), ("impact", .integer impact.code.toInt)]

/-- **Reads an impact.** -/
def read {σ : Type} [Source σ] (value : σ) : Reading Impact :=
  readRecord "struct Impact" {} [
    .mandatory "name" readText fun name impact => { impact with name },
    .mandatory "impact" Source.int32 fun code impact => { impact with code }] value

end Impact

/-- **What is known about an error key.** -/
structure Metadata where
  /-- When the problem appears. -/
  condition : String := ""
  /-- What the problem is. -/
  description : String := ""
  /-- How bad it is. -/
  impact : Impact := {}
  /-- How likely it is. -/
  likelihood : Int32 := 0
  /-- When it was published. -/
  publishDate : String := ""
  /-- How risky it is to resolve. -/
  resolutionRisk : Int32 := 0
  /-- Whether it is in use. -/
  status : String := ""
  /-- The tags that put it into groups. -/
  tags : List String := []
deriving DecidableEq, Inhabited

namespace Metadata

/-- The metadata as plain data. -/
def toData (metadata : Metadata) : Data :=
  .table [("condition", .text metadata.condition), ("description", .text metadata.description),
    ("impact", metadata.impact.toData), ("likelihood", .integer metadata.likelihood.toInt),
    ("publish_date", .text metadata.publishDate),
    ("resolution_risk", .integer metadata.resolutionRisk.toInt),
    ("status", .text metadata.status), ("tags", .ofTexts metadata.tags)]

/-- **Reads metadata** in which labels have their numbers. -/
def read {σ : Type} [Source σ] (value : σ) : Reading Metadata :=
  readRecord "struct ErrorKeyMetadata" {} [
    .mandatory "condition" readText fun condition metadata => { metadata with condition },
    .mandatory "description" readText fun description metadata => { metadata with description },
    .mandatory "impact" Impact.read fun impact metadata => { metadata with impact },
    .mandatory "likelihood" Source.int32 fun likelihood metadata => { metadata with likelihood },
    .mandatory "publish_date" readText fun publishDate metadata => { metadata with publishDate },
    .mandatory "resolution_risk" Source.int32
      fun resolutionRisk metadata => { metadata with resolutionRisk },
    .mandatory "status" readText fun status metadata => { metadata with status },
    .mandatory "tags" readTexts fun tags metadata => { metadata with tags }] value

end Metadata

/-! ## Texts -/

/-- **The texts of a rule or an error key.** -/
structure Texts where
  /-- A short description. -/
  generic : String := ""
  /-- A longer one. -/
  summary : String := ""
  /-- Why the problem was reported. -/
  reason : String := ""
  /-- Whether a reason is given here and not only taken over. -/
  hasReason : Bool := false
  /-- How to resolve the problem. -/
  resolution : String := ""
  /-- What else there is to read. -/
  moreInfo : String := ""
deriving DecidableEq, Inhabited

namespace Texts

/-- The texts as the first parts of what they belong to. -/
def entries (texts : Texts) : List (String × Data) :=
  [("generic", .text texts.generic), ("summary", .text texts.summary),
    ("reason", .text texts.reason), ("has_reason", .flag texts.hasReason),
    ("resolution", .text texts.resolution), ("more_info", .text texts.moreInfo)]

/-- The texts as the first fields of what they belong to. `change` changes the texts there. -/
def fields {σ ρ : Type} [Source σ] (change : (Texts → Texts) → ρ → ρ) : List (Field σ ρ) :=
  [.mandatory "generic" readText fun generic => change fun texts => { texts with generic },
    .mandatory "summary" readText fun summary => change fun texts => { texts with summary },
    .mandatory "reason" readText fun reason => change fun texts => { texts with reason },
    .mandatory "has_reason" Source.flag
      fun hasReason => change fun texts => { texts with hasReason },
    .mandatory "resolution" readText
      fun resolution => change fun texts => { texts with resolution },
    .mandatory "more_info" readText fun moreInfo => change fun texts => { texts with moreInfo }]

end Texts

/-! ## Error keys and rules -/

/-- **One form in which a problem can appear.** -/
structure ErrorKey where
  /-- What readers are told. -/
  texts : Texts := {}
  /-- What is known about it. -/
  metadata : Metadata := {}
deriving DecidableEq, Inhabited

namespace ErrorKey

/-- The error key as plain data. -/
def toData (key : ErrorKey) : Data :=
  .table (key.texts.entries ++ [("metadata", key.metadata.toData)])

/-- **Reads an error key.** -/
def read {σ : Type} [Source σ] (value : σ) : Reading ErrorKey :=
  readRecord "struct RuleErrorKeyContent" {} (
    Texts.fields (fun change key => { key with texts := change key.texts }) ++
    [.mandatory "metadata" Metadata.read fun metadata key => { key with metadata }]) value

end ErrorKey

/-- **A rule.** -/
structure Rule where
  /-- What readers are told where an error key has nothing of its own to say. -/
  texts : Texts := {}
  /-- The plugin that recognises the rule. -/
  plugin : Plugin := {}
  /-- The forms in which the problem can appear. -/
  errorKeys : Table ErrorKey := ∅
deriving DecidableEq, Inhabited

namespace Rule

/-- The rule as plain data. -/
def toData (rule : Rule) : Data :=
  .table (rule.texts.entries ++
    [("plugin", rule.plugin.toData), ("error_keys", .ofTable ErrorKey.toData rule.errorKeys)])

/-- **Reads a rule.** -/
def read {σ : Type} [Source σ] (value : σ) : Reading Rule :=
  readRecord "struct RuleContent" {} (
    Texts.fields (fun change rule => { rule with texts := change rule.texts }) ++
    [.mandatory "plugin" Plugin.read fun plugin rule => { rule with plugin },
      .mandatory "error_keys" (readTable ErrorKey.read)
        fun errorKeys rule => { rule with errorKeys }]) value

end Rule

/-- **All rules, and what their labels stand for.** -/
structure Rules where
  /-- What labels stand for. -/
  codes : LabelCodes := {}
  /-- The rules by their names. -/
  rules : Table Rule := ∅
deriving DecidableEq, Inhabited

namespace Rules

/-- The rules as plain data. -/
def toData (all : Rules) : Data :=
  .table [("config", all.codes.toData), ("rules", .ofTable Rule.toData all.rules)]

/-- **Reads rules.** -/
def read {σ : Type} [Source σ] (value : σ) : Reading Rules :=
  readRecord "struct RuleContentDirectory" {} [
    .mandatory "config" LabelCodes.read fun codes all => { all with codes },
    .mandatory "rules" (readTable Rule.read) fun rules all => { all with rules }] value

end Rules

end Rulebook
