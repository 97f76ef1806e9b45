import Rulebook.Proofs.RuleSchema

/-!
# Which texts an error key takes over

A rule and its error keys have texts of the same five **kinds** (`Texts.Kind`), each in its own
file. What holds of one kind holds of all of them: the text of an error key is the one of its own
directory, and where there is none, or an empty one, that of the rule (`ErrorKey.TakesOver`). A file
that is missing and one that cannot be read are the same to this rule, and so is an empty one.

Whether an error key gives a reason is asked of its own directory alone, whatever it takes over. So
the text of a kind depends on two files and on nothing else of the rule; in particular no error key
depends on another.
-/

namespace Rulebook

open Files (Node World)

variable {root : Node} {codes : LabelCodes} {directory held : Directory}

namespace Texts

/-! ## The kinds of texts -/

/-- **A kind of text** that rules and error keys have. -/
inductive Kind where
  /-- The short description. -/
  | generic
  /-- The longer description. -/
  | summary
  /-- The reason. -/
  | reason
  /-- The resolution. -/
  | resolution
  /-- Further reading. -/
  | moreInfo
deriving DecidableEq, Repr

namespace Kind

/-- The file with the text of a kind. -/
def file : Kind → String
  | generic => "generic.md"
  | summary => "summary.md"
  | reason => "reason.md"
  | resolution => "resolution.md"
  | moreInfo => "more_info.md"

/-- The text of a kind. -/
def get (texts : Texts) : Kind → String
  | generic => texts.generic
  | summary => texts.summary
  | reason => texts.reason
  | resolution => texts.resolution
  | moreInfo => texts.moreInfo

/-- A directory has the text of a kind in its file. -/
theorem get_ofDirectory (kind : Kind) :
    get (ofDirectory root directory) kind = directory.text root kind.file := by
  cases kind <;> rfl

/-- Texts of a kind are taken over from texts of the same kind. -/
theorem get_inherit (own rule : Texts) (kind : Kind) :
    get (own.inherit rule) kind = orElse (get own kind) (get rule kind) := by
  cases kind <;> rfl

end Kind

/-- A text of one's own is kept. -/
theorem orElse_of_ne {own : String} (h : own ≠ "") (other : String) : orElse own other = own :=
  if_neg (by simpa using h)

/-- Where there is none, the other text takes its place. -/
theorem orElse_empty (other : String) : orElse "" other = other := rfl

/-- **A directory gives a reason when the file is there and is not empty.** -/
theorem hasReason_ofDirectory_iff : (ofDirectory root directory).hasReason = true
    ↔ ∃ text, directory.text? root Kind.reason.file = some text ∧ text ≠ "" := by
  rw [hasReason_ofDirectory]
  show (directory.text? root Kind.reason.file).getD "" ≠ "" ↔ _
  cases directory.text? root Kind.reason.file <;> simp

end Texts

open Texts (Kind)

/-! ## Error keys -/

/-- **How an error key comes by its texts**, when `held` is its directory and `directory` that of
the rule. -/
structure ErrorKey.TakesOver (root : Node) (codes : LabelCodes) (directory held : Directory)
    (key : ErrorKey) : Prop where
  /-- A text of its own is kept, whatever the rule has. -/
  own (kind : Kind) {text : String} (h : held.text? root kind.file = some text) (hne : text ≠ "") :
    kind.get key.texts = text
  /-- Where it has none, it has that of the rule, which may be empty. -/
  inherited (kind : Kind) (h : ∀ text, held.text? root kind.file = some text → text = "") :
    kind.get key.texts = (directory.text? root kind.file).getD ""
  /-- It gives a reason if it has one of its own. -/
  hasReason : key.texts.hasReason = true
    ↔ ∃ text, held.text? root Kind.reason.file = some text ∧ text ≠ ""
  /-- Its metadata are its own. -/
  metadata : held.demand root metadataFile (Metadata.ofYaml · codes) = .ok key.metadata

/-- An error key that was loaded takes over what it lacks. -/
theorem ErrorKey.takesOver_of_load {own : ErrorKey} (h : ErrorKey.load root codes held = .ok own) :
    TakesOver root codes directory held
      { own with texts := own.texts.inherit (Texts.ofDirectory root directory) } := by
  have hget (kind : Kind) : kind.get (own.texts.inherit (Texts.ofDirectory root directory))
      = Texts.orElse (held.text root kind.file) (directory.text root kind.file) := by
    rw [texts_of_load h, Kind.get_inherit, Kind.get_ofDirectory, Kind.get_ofDirectory]
  refine ⟨fun kind text htext hne => ?_, fun kind hnone => ?_, ?_, ?_⟩
  · rw [hget, Directory.text, htext]
    exact Texts.orElse_of_ne hne _
  · have hempty : held.text root kind.file = "" := by
      rw [Directory.text]
      cases htext : held.text? root kind.file with
      | none => rfl
      | some text => exact hnone text htext
    rw [hget, hempty, Texts.orElse_empty]
    rfl
  · show own.texts.hasReason = true ↔ _
    rw [texts_of_load h, Texts.hasReason_ofDirectory_iff]
  · rw [load_eq, map_eq_ok] at h
    obtain ⟨metadata, hmetadata, rfl⟩ := h
    exact hmetadata

/-- **Texts of a kind that come from equal files are equal**, whatever else differs. -/
theorem ErrorKey.TakesOver.get_eq {other : Node} {labels : LabelCodes} {mate heldMate : Directory}
    {key keyMate : ErrorKey} (h : TakesOver root codes directory held key)
    (h' : TakesOver other labels mate heldMate keyMate) {kind : Kind}
    (hown : held.text? root kind.file = heldMate.text? other kind.file)
    (hrule : directory.text? root kind.file = mate.text? other kind.file) :
    kind.get key.texts = kind.get keyMate.texts := by
  by_cases hsome : ∃ text, held.text? root kind.file = some text ∧ text ≠ ""
  · obtain ⟨text, htext, hne⟩ := hsome
    rw [h.own kind htext hne, h'.own kind (hown ▸ htext) hne]
  · have hnone : ∀ text, held.text? root kind.file = some text → text = "" := by
      simpa using hsome
    rw [h.inherited kind hnone, h'.inherited kind (hown ▸ hnone), hrule]

namespace Rule

/-- **Each directory in that of a rule that is loaded has its error key**, under its name. -/
theorem exists_takesOver {rule : Rule} (hd : directory.node.Distinct)
    (h : load root codes directory = .ok rule) (hheld : directory.Holds held) :
    ∃ key, rule.errorKeys.get? held.name = some key
      ∧ key.TakesOver root codes directory held := by
  obtain ⟨⟨name, key⟩, hmem, rfl, own, hown, rfl⟩ :=
    exists_right_of_forall₂ (forall₂_of_load hd h) (Directory.holds_iff.1 hheld)
  refine ⟨_, (Table.get?_eq_some_iff ..).2 hmem, ?_⟩
  rw [texts_of_load h]
  exact ErrorKey.takesOver_of_load hown

/-- Whatever error key is found under the name of a directory is the one of that directory. -/
theorem takesOver_of_get? {rule : Rule} (hd : directory.node.Distinct)
    (h : load root codes directory = .ok rule) (hheld : directory.Holds held) {key : ErrorKey}
    (hkey : rule.errorKeys.get? held.name = some key) :
    key.TakesOver root codes directory held := by
  obtain ⟨found, hfound, htakes⟩ := exists_takesOver hd h hheld
  obtain rfl := Option.some.inj (hfound.symm.trans hkey)
  exact htakes

/-! ## What is taken over -/

/-- **An error key has its own texts and, where it has none, those of the rule.** The rule has the
texts of its own directory and gives a reason if there is one there. Each directory in it has its
error key and each error key its directory; the error key takes over what it lacks and nothing else.
In two rules that are loaded, from any directories in any trees, error keys have the same text of a
kind as soon as their own files and those of the rules have it, whatever other error keys there
are. -/
theorem load_inherits {rule : Rule} (hd : directory.node.Distinct)
    (h : load root codes directory = .ok rule) :
    (∀ kind : Kind, kind.get rule.texts = (directory.text? root kind.file).getD "")
      ∧ (rule.texts.hasReason = true
        ↔ ∃ text, directory.text? root Kind.reason.file = some text ∧ text ≠ "")
      ∧ (∀ name, rule.errorKeys.contains name = true
        ↔ ∃ held, directory.Holds held ∧ held.name = name)
      ∧ (∀ held, directory.Holds held → ∃ key, rule.errorKeys.get? held.name = some key
        ∧ key.TakesOver root codes directory held)
      ∧ ∀ (other : Node) (labels : LabelCodes) (mate : Directory) (loaded : Rule),
        mate.node.Distinct → load other labels mate = .ok loaded →
        ∀ held heldMate, directory.Holds held → mate.Holds heldMate →
        ∀ key keyMate, rule.errorKeys.get? held.name = some key →
          loaded.errorKeys.get? heldMate.name = some keyMate →
        ∀ kind : Kind, held.text? root kind.file = heldMate.text? other kind.file →
          directory.text? root kind.file = mate.text? other kind.file →
          kind.get key.texts = kind.get keyMate.texts := by
  refine ⟨fun kind => ?_, ?_, contains_errorKeys_iff hd h, fun held => exists_takesOver hd h, ?_⟩
  · rw [texts_of_load h, Kind.get_ofDirectory]
    rfl
  · rw [texts_of_load h]
    exact Texts.hasReason_ofDirectory_iff
  · intro other labels mate loaded hd' h' held heldMate hheld hmate key keyMate hkey hkeyMate kind
    exact (takesOver_of_get? hd h hheld hkey).get_eq (takesOver_of_get? hd' h' hmate hkeyMate)

/-- A content with a rule that has a short description and a reason. Its error key has another short
description and an empty file for the reason. -/
def inheritingContent : World := .ofPlaces [] [
  (["rule", "plugin.yaml"], .file []),
  (["rule", "generic.md"], .file [120]),
  (["rule", "reason.md"], .file [120]),
  (["rule", "key", "metadata.yaml"], .file []),
  (["rule", "key", "generic.md"], .file [121]),
  (["rule", "key", "reason.md"], .file [])]

/-- The directory of the error key. -/
def inheritingKey : Directory where
  place := ["key", "rule"]
  links := World.maxLinks
  path := Path.join "rule" "key"
  entries := [("metadata.yaml", .file []), ("generic.md", .file [121]), ("reason.md", .file [])]

/-- The directory of the rule. -/
def inheritingRule : Directory where
  place := ["rule"]
  links := World.maxLinks
  path := "rule"
  entries := [("plugin.yaml", .file []), ("generic.md", .file [120]), ("reason.md", .file [120]),
    ("key", inheritingKey.node)]

/-- What that content holds. -/
def inheritingRoot : Node := .directory [("rule", inheritingRule.node)]

theorem inheritingContent_root : inheritingContent.root = inheritingRoot := rfl

theorem holds_inheritingRule (held : Directory) :
    inheritingRule.Holds held ↔ held = inheritingKey := by
  constructor
  · rintro ⟨h⟩
    simp only [inheritingRule, List.mem_cons, Prod.mk.injEq, reduceCtorEq, and_false, false_or,
      List.not_mem_nil, or_false, Directory.node, Node.directory.injEq] at h
    obtain ⟨rfl, rfl⟩ := h
    rfl
  · rintro rfl
    have hmem : ("key", inheritingKey.node) ∈ inheritingRule.entries := by simp [inheritingRule]
    exact .entry hmem

/-- What is in the files of the two directories that matter to the rule and to the error key. -/
theorem texts_inheritingRule : inheritingRule.text? inheritingRoot pluginFile = some ""
      ∧ inheritingKey.text? inheritingRoot metadataFile = some ""
      ∧ inheritingKey.text? inheritingRoot Kind.generic.file = some "y"
      ∧ inheritingKey.text? inheritingRoot Kind.reason.file = some ""
      ∧ inheritingRule.text? inheritingRoot Kind.reason.file = some "x" := by
  have hempty : Text.decodeLenient [] = "" := Text.decodeLenient_encode ""
  have hx : Text.decodeLenient [120] = "x" := Text.decodeLenient_encode "x"
  have hy : Text.decodeLenient [121] = "y" := Text.decodeLenient_encode "y"
  refine ⟨?_, ?_, ?_, ?_, ?_⟩
  · rw [inheritingRule.text?_of_find? rfl (by decide) (by decide) rfl, hempty]
  · rw [inheritingKey.text?_of_find? rfl (by decide) (by decide) rfl, hempty]
  · rw [inheritingKey.text?_of_find? rfl (by decide) (by decide) rfl, hy]
  · rw [inheritingKey.text?_of_find? rfl (by decide) (by decide) rfl, hempty]
  · rw [inheritingRule.text?_of_find? rfl (by decide) (by decide) rfl, hx]

/-- The rule of that content is loaded. -/
theorem load_inheritingRule (hd : inheritingRule.node.Distinct) :
    ∃ rule, load inheritingRoot {} inheritingRule = .ok rule := by
  obtain ⟨hplugin, hmetadata, hgeneric, -, hreason⟩ := texts_inheritingRule
  refine (exists_load_iff hd).2
    ⟨⟨_, Directory.demand_eq_ok_iff.2 ⟨"", hplugin, rfl⟩⟩, fun held hheld => ?_⟩
  obtain rfl := (holds_inheritingRule held).1 hheld
  refine ⟨⟨_, Directory.demand_eq_ok_iff.2 ⟨"", hmetadata, rfl⟩⟩, .inl ?_, .inr ?_⟩
  · rw [Directory.text, show genericFile = Kind.generic.file from rfl, hgeneric]
    decide
  · rw [Directory.text, show reasonFile = Kind.reason.file from rfl, hreason]
    decide

/-- The error key keeps its short description, and takes over the reason without giving one. -/
theorem load_inherits_inheritingContent : inheritingRule.node.Distinct
    ∧ ∃ rule, load inheritingContent.root {} inheritingRule = .ok rule
      ∧ ∃ key, rule.errorKeys.get? "key" = some key ∧ key.texts.generic = "y"
        ∧ key.texts.reason = "x" ∧ key.texts.hasReason = false := by
  have hd : inheritingRule.node.Distinct := by
    have hroot := inheritingContent.distinct
    rw [inheritingContent_root, inheritingRoot] at hroot
    exact hroot.of_find? (show Node.find? "rule" _ = _ from rfl)
  obtain ⟨rule, h⟩ := load_inheritingRule hd
  obtain ⟨-, -, -, hkeys, -⟩ := load_inherits hd h
  obtain ⟨key, hkey, htakes⟩ := hkeys inheritingKey ((holds_inheritingRule _).2 rfl)
  obtain ⟨-, -, hgeneric, hnone, hreason⟩ := texts_inheritingRule
  refine ⟨hd, rule, h, key, hkey, htakes.own .generic hgeneric (by decide), ?_, ?_⟩
  · refine (htakes.inherited .reason fun text htext => ?_).trans (by rw [hreason]; rfl)
    exact Option.some.inj (htext.symm.trans hnone)
  · rw [← Bool.not_eq_true, htakes.hasReason, hnone]
    simp

end Rule

end Rulebook
