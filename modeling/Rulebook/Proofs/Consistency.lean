import Rulebook.Proofs.Bookkeeping
import Rulebook.Proofs.RuleLoading
import Rulebook.Proofs.Utf8

/-!
# What holds of everything that is served

A snapshot says three things that must fit together: what became of each name, which rules there
are, and what labels stand for. `Snapshot.Consistent` says how they fit. A single record keeps it,
whatever became of the rule (`Snapshot.Consistent.record`), and so does a whole load.

A name may have a rule although its status says that it was not loaded, when an earlier directory
with the name was. Where no name occurs twice that cannot be, and then the rules are those that are
shown as loaded (`Snapshot.isLoaded_of_nodup`) and what failed can be counted
(`Snapshot.failedCount_add_size`).
-/

namespace Rulebook

open Files (Node World)

/-- With distinct names every entry is the last one with its name. -/
theorem isLast_of_nodup {α β : Type} {f : α → β} {list : List α} (h : (list.map f).Nodup)
    {entry : α} (hentry : entry ∈ list) : IsLast (fun other => f other = f entry) list entry := by
  obtain ⟨before, after, rfl⟩ := List.append_of_mem hentry
  refine ⟨before, after, rfl, rfl, fun later hlater heq => ?_⟩
  rw [List.map_append, List.nodup_append, List.map_cons, List.nodup_cons] at h
  exact h.2.1.1 (heq ▸ List.mem_map_of_mem hlater)

namespace Snapshot

/-- **How the parts of a snapshot fit together.** -/
structure Consistent (snapshot : Snapshot) : Prop where
  /-- A status is that of a rule that was loaded exactly when it has no error. -/
  status : ∀ name status, snapshot.status.get? name = some status →
    (status.isLoaded = true ↔ status.error = "")
  /-- What is shown as loaded is there. -/
  loaded : ∀ name status, snapshot.status.get? name = some status → status.isLoaded = true →
    snapshot.rules.rules.contains name = true
  /-- What is there has a status. -/
  rules : ∀ name, snapshot.rules.rules.contains name = true → snapshot.status.contains name = true
  /-- Every rule is sound. -/
  sound : ∀ name rule, snapshot.rules.rules.get? name = some rule →
    rule.Sound snapshot.rules.codes

/-- Flag and error of a status agree, whatever became of the rule. -/
theorem outcomeStatus_agrees (category : Category) (outcome : Except Error Rule) :
    (outcomeStatus category outcome).isLoaded = true
      ↔ (outcomeStatus category outcome).error = "" := by
  cases outcome with
  | ok rule => exact ⟨fun _ => rfl, fun _ => rfl⟩
  | error error =>
    rw [outcomeStatus_error]
    constructor
    · intro h
      cases h
    · intro h
      exact absurd h error.message_ne_empty

/-- **A record keeps a snapshot consistent.** -/
theorem Consistent.record {snapshot : Snapshot} (h : snapshot.Consistent) (category : Category)
    (name : String) {outcome : Except Error Rule}
    (hsound : ∀ rule, outcome = .ok rule → rule.Sound snapshot.rules.codes) :
    (snapshot.record category name outcome).Consistent where
  status other status hstatus := by
    rw [status_record] at hstatus
    split at hstatus
    · rw [← Option.some.inj hstatus]
      exact outcomeStatus_agrees category outcome
    · exact h.status other status hstatus
  loaded other status hstatus hloaded := by
    rw [status_record] at hstatus
    rw [Table.contains_iff, rules_record]
    split at hstatus
    · -- the status is the one just recorded, and only a success records one as loaded
      obtain rfl := Option.some.inj hstatus
      cases outcome with
      | ok rule => exact ⟨rule, by simp [Except.toOption, *]⟩
      | error error => cases hloaded
    · obtain ⟨rule, hrule⟩ := (Table.contains_iff ..).1 (h.loaded other status hstatus hloaded)
      exact ⟨rule, by simp [*]⟩
  rules other hcontains := by
    rw [Table.contains_iff, rules_record] at hcontains
    rw [Table.contains_iff, status_record]
    split
    · exact ⟨_, rfl⟩
    · rename_i hne
      rw [if_neg hne] at hcontains
      exact (Table.contains_iff ..).1 (h.rules other ((Table.contains_iff ..).2 hcontains))
  sound other rule hrule := by
    rw [codes_record]
    -- the rule is the one just recorded or was there before
    rw [rules_record, Option.or_eq_some_iff, Option.ite_none_right_eq_some] at hrule
    rcases hrule with ⟨-, hrule⟩ | ⟨-, hrule⟩
    · cases outcome with
      | ok loaded => exact hsound rule (congrArg Except.ok (Option.some.inj hrule))
      | error error => cases hrule
    · exact h.sound other rule hrule

/-- The empty snapshot is consistent. -/
theorem consistent_empty (codes : LabelCodes) : ({ rules := { codes } } : Snapshot).Consistent where
  status _ _ h := nomatch h
  loaded _ _ h := nomatch h
  rules _ h := nomatch h
  sound _ _ h := nomatch h

/-- **Loading any rule directories one after the other keeps a snapshot consistent.** -/
theorem Consistent.foldl {snapshot : Snapshot} (h : snapshot.Consistent) {codes : LabelCodes}
    (hcodes : snapshot.rules.codes = codes) (root : Node) (entries : List (Category × Directory)) :
    (entries.foldl (loadEntry root codes) snapshot).Consistent := by
  induction entries generalizing snapshot with
  | nil => exact h
  | cons entry rest ih =>
    refine ih (h.record entry.1 entry.2.name fun rule hrule => ?_) ?_
    · exact hcodes ▸ Rule.sound_of_load hrule
    · exact (codes_record ..).trans hcodes

/-! ## Names that occur once -/

/-- **What is there is shown as loaded**, as long as no name occurs twice among what was loaded. -/
theorem isLoaded_of_nodup (root : Node) (codes : LabelCodes)
    {entries : List (Category × Directory)} (hnames : (entries.map (·.2.name)).Nodup)
    {name : String} {rule : Rule}
    (h : (entries.foldl (loadEntry root codes) { rules := { codes } }).rules.rules.get? name
      = some rule) :
    ∃ status, (entries.foldl (loadEntry root codes) { rules := { codes } }).status.get? name
      = some status ∧ status.isLoaded = true := by
  have hempty : ({ rules := { codes } } : Snapshot).rules.rules.get? name = none := rfl
  rw [rules_foldl, hempty, Option.or_none] at h
  obtain ⟨entry, hentry, hunder⟩ := List.mem_filterMap.1 (List.mem_of_getLast? h)
  obtain ⟨rfl, hload⟩ := (ruleUnder_eq_some ..).1 hunder
  refine ⟨.loaded entry.1, ?_, rfl⟩
  have hunder : statusUnder root codes entry.2.name entry = some (.loaded entry.1) := by
    rw [statusUnder_eq_some, hload]
    exact ⟨rfl, rfl⟩
  have hlast := getLast?_filterMap_of_isLast (f := statusUnder root codes entry.2.name)
    (isLast_of_nodup hnames hentry) (fun other hother => if_neg hother) hunder
  rw [status_foldl, hlast]
  rfl

/-- The rules are those shown as loaded as soon as nothing else is there. -/
theorem Consistent.keys_eq {snapshot : Snapshot} (h : snapshot.Consistent)
    (hrules : ∀ name rule, snapshot.rules.rules.get? name = some rule →
      ∃ status, snapshot.status.get? name = some status ∧ status.isLoaded = true) :
    snapshot.rules.rules.keys
      = (snapshot.status.filter fun _ status => status.isLoaded).keys := by
  refine Table.keys_eq fun name => ?_
  rw [Table.contains_iff, Table.contains_iff]
  simp only [Table.get?_filter_eq_some_iff]
  constructor
  · rintro ⟨rule, hrule⟩
    exact hrules name rule hrule
  · rintro ⟨status, hstatus, hloaded⟩
    exact (Table.contains_iff ..).1 (h.loaded name status hstatus hloaded)

/-- What failed is what has a status and no rule, when the rules are those shown as loaded. -/
theorem failedCount_add_size {snapshot : Snapshot} (h : snapshot.rules.rules.keys
    = (snapshot.status.filter fun _ status => status.isLoaded).keys) :
    snapshot.failedCount + snapshot.rules.rules.size = snapshot.status.size := by
  have hsize : snapshot.rules.rules.size
      = (snapshot.status.values.filter fun status => status.isLoaded).length := by
    have := congrArg List.length h
    rw [Table.keys, Table.keys, List.length_map, List.length_map, Table.filter] at this
    rw [Table.size, this, Table.values, List.filter_map, List.length_map]
    rfl
  rw [hsize, failedCount, Nat.add_comm, ← List.length_eq_length_filter_add, Table.values,
    List.length_map, Table.size]

/-! ## A content with a sound and a faulty rule -/

/-- A text that gives one label a number. -/
def labelsText : String := "impact: \x7bHigh: 3\x7d"

/-- What the labels stand for then. -/
def labelsOfText : LabelCodes := { impact := ⟨[("High", 3)], List.pairwise_singleton ..⟩ }

theorem ofYaml_labelsText : LabelCodes.ofYaml labelsText = .ok labelsOfText :=
  eq_ok_of_toOption (by decide +kernel)

/-- Metadata of an error key that use the label and have two tags. -/
def keyText : String := "\x7bimpact: High, tags: [a, b]\x7d"

/-- The metadata that these are, by what labels stand for. -/
def keyMetadata (codes : LabelCodes) : Metadata where
  impact := ⟨"High", (codes.impact.get? "High").getD LabelCodes.unknown⟩
  resolutionRisk := (codes.resolutionRisk.get? "").getD LabelCodes.unknown
  tags := ["a", "b"]

theorem ofYaml_keyText (codes : LabelCodes) :
    Metadata.ofYaml keyText codes = .ok (keyMetadata codes) := by
  have hevents : Yaml.Event.ofText keyText.toList = ([.streamStart, .documentStart,
      .mappingStart {}, .scalar {} "impact" .plain, .scalar {} "High" .plain,
      .scalar {} "tags" .plain, .sequenceStart {}, .scalar {} "a" .plain, .scalar {} "b" .plain,
      .sequenceEnd, .mappingEnd, .documentEnd, .streamEnd], none) := by
    decide +kernel
  have hdocument := Yaml.Document.ofText_of_events hevents rfl
  have hread : readYaml {} WrittenMetadata.read metadataFile keyText
      = .ok { impact := "High", tags := ["a", "b"] } := by
    unfold readYaml Yaml.read
    rw [hdocument]
    rfl
  rw [Metadata.ofYaml, hread]
  rfl

/-- Groups that list one of the two tags. -/
def groupsText : String := "main: \x7bname: Main, tags: [a]\x7d"

/-- A content in which each of two rule directories has its own name. The first rule has an error
key that takes over the texts of the rule, and the second one an error key without metadata. What
stands in the file of the labels, in that of the metadata and in a file of groups is given. -/
def mixedWorld (labels key groups : List UInt8) : World := .ofPlaces [] [
  (["config.yaml"], .file labels),
  (["external", "sound", "plugin.yaml"], .file []),
  (["external", "sound", "generic.md"], .file [120]),
  (["external", "sound", "reason.md"], .file [120]),
  (["external", "sound", "key", "metadata.yaml"], .file key),
  (["internal", "faulty", "plugin.yaml"], .file []),
  (["internal", "faulty", "key"], .directory []),
  (["groups.yaml"], .file groups)]

/-- What the directory of the rule of that content that can be loaded holds. -/
def soundEntries (key : List UInt8) : List (String × Node) := [("plugin.yaml", .file []),
  ("generic.md", .file [120]), ("reason.md", .file [120]),
  ("key", .directory [("metadata.yaml", .file key)])]

/-- What the directory of the rule of that content that cannot be loaded holds. -/
def faultyEntries : List (String × Node) := [("plugin.yaml", .file []), ("key", .directory [])]

theorem mixedWorld_root (labels key groups : List UInt8) :
    (mixedWorld labels key groups).root = .directory [("config.yaml", .file labels),
      ("external", .directory [("sound", .directory (soundEntries key))]),
      ("internal", .directory [("faulty", .directory faultyEntries)]),
      ("groups.yaml", .file groups)] := by
  simp [mixedWorld, World.ofPlaces, Node.put, Node.replace, Node.find?, Node.bare, soundEntries,
    faultyEntries]

/-- That content with metadata that use the label, and with those groups. -/
def mixedContentOf (labels : List UInt8) : World :=
  mixedWorld labels (Text.encode keyText) (Text.encode groupsText)

/-- That content with a number for the label that the error key uses. -/
def mixedContent : World := mixedContentOf (Text.encode labelsText)

/-- The directory of the external rules of that content. -/
def mixedExternal : Directory where
  place := ["external"]
  links := World.maxLinks
  path := Path.join "." "external"
  entries := [("sound", .directory (soundEntries (Text.encode keyText)))]

/-- The directory of the rule of that content that can be loaded. -/
def soundRule : Directory where
  place := ["sound", "external"]
  links := World.maxLinks
  path := mixedExternal.pathOf "sound"
  entries := soundEntries (Text.encode keyText)

/-- The directory of its error key. -/
def soundKey : Directory where
  place := ["key", "sound", "external"]
  links := World.maxLinks
  path := soundRule.pathOf "key"
  entries := [("metadata.yaml", .file (Text.encode keyText))]

/-- The directory of the internal rules of that content. -/
def mixedInternal : Directory where
  place := ["internal"]
  links := World.maxLinks
  path := Path.join "." "internal"
  entries := [("faulty", .directory faultyEntries)]

/-- The directory of the rule of that content that cannot be loaded. -/
def faultyRule : Directory where
  place := ["faulty", "internal"]
  links := World.maxLinks
  path := mixedInternal.pathOf "faulty"
  entries := faultyEntries

section Mixed

variable (labels : List UInt8)

theorem mixedContentOf_root : (mixedContentOf labels).root = .directory [
    ("config.yaml", .file labels), ("external", mixedExternal.node),
    ("internal", mixedInternal.node), ("groups.yaml", .file (Text.encode groupsText))] :=
  mixedWorld_root labels (Text.encode keyText) (Text.encode groupsText)

theorem openDirectory_mixedContentOf :
    openDirectory (mixedContentOf labels) (Path.join "." Category.external.name) = .ok mixedExternal
      ∧ openDirectory (mixedContentOf labels) (Path.join "." Category.internal.name)
        = .ok mixedInternal :=
  ⟨openDirectory_here (mixedContentOf_root labels) rfl .external rfl,
    openDirectory_here (mixedContentOf_root labels) rfl .internal rfl⟩

theorem soundRule_node : soundRule.toPosition.node? (mixedContentOf labels).root
    = some (.directory soundRule.entries) := by
  rw [mixedContentOf_root]
  rfl

theorem soundKey_node : soundKey.toPosition.node? (mixedContentOf labels).root
    = some (.directory soundKey.entries) := by
  rw [mixedContentOf_root]
  rfl

theorem faultyRule_node : faultyRule.toPosition.node? (mixedContentOf labels).root
    = some (.directory faultyRule.entries) := by
  rw [mixedContentOf_root]
  rfl

theorem sequence_mixedContentOf :
    sequence (mixedContentOf labels) "." = [(.external, soundRule), (.internal, faultyRule)] := by
  have hsound : soundRule.isRule (mixedContentOf labels).root = true :=
    Directory.isRule_of_find? (soundRule_node labels) (by decide) rfl
  have hfaulty : faultyRule.isRule (mixedContentOf labels).root = true :=
    Directory.isRule_of_find? (faultyRule_node labels) (by decide) rfl
  have hexternal : mixedExternal.subdirectories = [soundRule] :=
    Directory.subdirectories_of_single rfl
  have hinternal : mixedInternal.subdirectories = [faultyRule] :=
    Directory.subdirectories_of_single rfl
  obtain ⟨hopen, hopen'⟩ := openDirectory_mixedContentOf labels
  rw [sequence_eq, found_eq hopen, found_eq hopen', Directory.rules_of_single hexternal hsound,
    Directory.rules_of_single hinternal hfaulty]
  rfl

/-- The sound rule, by what labels stand for. -/
def loadedRule (codes : LabelCodes) : Rule where
  texts := { generic := "x", reason := "x", hasReason := true }
  errorKeys := Rule.inheritAll { generic := "x", reason := "x", hasReason := true }
    [("key", { metadata := keyMetadata codes })]

theorem load_soundRule (codes : LabelCodes) :
    Rule.load (mixedContentOf labels).root codes soundRule = .ok (loadedRule codes) := by
  have hempty : Text.decodeLenient [] = "" := Text.decodeLenient_encode ""
  have hplugin := Directory.text?_of_find? (soundRule_node labels)
    (show pluginFile ≠ "." ∧ pluginFile ≠ ".." ∧ pluginFile.utf8ByteSize ≤ World.maxName by decide)
    (by decide) rfl
  have htexts : Texts.ofDirectory (mixedContentOf labels).root soundRule
      = { generic := "x", reason := "x", hasReason := true } := by
    have hx : Text.decodeLenient [120] = "x" := Text.decodeLenient_encode "x"
    have hgeneric : soundRule.ownText genericFile = "x" := hx
    have hreason : soundRule.ownText reasonFile = "x" := hx
    rw [Texts.ofDirectory_eq (soundRule_node labels) (by decide)
      (by simp [soundRule, soundEntries]), hgeneric, hreason]
    rfl
  have hkeyTexts : Texts.ofDirectory (mixedContentOf labels).root soundKey = {} := by
    rw [Texts.ofDirectory_eq (soundKey_node labels) (by decide) (by simp [soundKey])]
    rfl
  have hmetadata := Directory.text?_of_find? (soundKey_node labels)
    (show metadataFile ≠ "." ∧ metadataFile ≠ ".." ∧ metadataFile.utf8ByteSize ≤ World.maxName by
      decide) (by decide) rfl
  rw [Text.decodeLenient_encode] at hmetadata
  have hkey := ErrorKey.load_eq_ok_iff.2 ⟨keyText, _, hmetadata, ofYaml_keyText codes, rfl⟩
  rw [hkeyTexts] at hkey
  have hheld : soundRule.subdirectories = [soundKey] := Directory.subdirectories_of_single rfl
  have hkeys : ErrorKey.loadAll (mixedContentOf labels).root codes soundRule.subdirectories
      = .ok [("key", ⟨{}, keyMetadata codes⟩)] := by
    rw [hheld, ErrorKey.loadAll_eq_ok_iff]
    exact .cons ⟨rfl, hkey⟩ .nil
  rw [hempty] at hplugin
  refine Rule.load_eq_ok_iff.2 ⟨"", {}, _, hplugin, rfl, hkeys, ?_, ?_⟩
  · rw [htexts]
    rfl
  · rw [htexts]
    rfl

/-- **That content is loaded**, whatever the label stands for, and has the rule that is sound. -/
theorem load_mixedContentOf {text : String} {codes : LabelCodes}
    (htext : Text.decode? labels = some text) (hlabels : LabelCodes.ofYaml text = .ok codes) :
    ∃ snapshot, load (mixedContentOf labels) "." = .ok snapshot
      ∧ snapshot.rules.rules.get? "sound" = some (loadedRule codes) := by
  have hroom : Node.extentAll [("config.yaml", .file []), ("external", mixedExternal.node),
      ("internal", mixedInternal.node), ("groups.yaml", .file [])] < Path.maxSize := by
    decide +kernel
  refine ⟨_, load_here (mixedContentOf_root labels) rfl rfl htext hlabels hroom rfl rfl, ?_⟩
  rw [rules_foldl, sequence_mixedContentOf]
  show ((Rule.load _ codes soundRule).toOption.toList.getLast?).or none = _
  rw [load_soundRule]
  rfl

end Mixed

/-! ## What is served -/

/-- **Whatever is served is consistent.** And when no two rule directories have one name, the rules
are exactly those that are shown as loaded, and the others are those that are counted as failed. -/
theorem load_consistent {world : World} {path : String} {snapshot : Snapshot}
    (h : load world path = .ok snapshot) :
    snapshot.Consistent
      ∧ (((sequence world path).map (·.2.name)).Nodup →
        snapshot.rules.rules.keys = (snapshot.status.filter fun _ status => status.isLoaded).keys
          ∧ snapshot.rules.rules.size ≤ snapshot.status.size
          ∧ snapshot.failedCount = snapshot.status.size - snapshot.rules.rules.size) := by
  obtain ⟨codes, -, -, rfl⟩ := load_eq_ok_iff.1 h
  have hconsistent : ((sequence world path).foldl (loadEntry world.root codes)
      { rules := { codes } }).Consistent := (consistent_empty codes).foldl rfl _ _
  refine ⟨hconsistent, fun hnames => ?_⟩
  have hkeys := hconsistent.keys_eq fun name rule hrule =>
    isLoaded_of_nodup world.root codes hnames hrule
  have hcount := failedCount_add_size hkeys
  exact ⟨hkeys, by omega, by omega⟩

/-- In that content, whose names are distinct, the faulty rule is the one that is counted. The error
key of the sound one has the number of its label, its tags and the reason of the rule. -/
theorem load_consistent_mixedContent : ∃ snapshot rule key, load mixedContent "." = .ok snapshot
    ∧ snapshot.Consistent
    ∧ snapshot.rules.rules.keys = (snapshot.status.filter fun _ status => status.isLoaded).keys
    ∧ snapshot.failedCount = snapshot.status.size - snapshot.rules.rules.size
    ∧ snapshot.rules.rules.get? "sound" = some rule ∧ rule.errorKeys.get? "key" = some key
    ∧ key.metadata.impact = ⟨"High", 3⟩ ∧ key.metadata.tags = ["a", "b"]
    ∧ key.texts.reason = "x" ∧ key.texts.hasReason = false := by
  obtain ⟨snapshot, h, hrule⟩ :=
    load_mixedContentOf _ (Text.decode?_encode labelsText) ofYaml_labelsText
  obtain ⟨hconsistent, hdistinct⟩ := load_consistent h
  obtain ⟨hkeys, -, hcount⟩ := hdistinct (by rw [sequence_mixedContentOf]; decide)
  exact ⟨snapshot, _, _, h, hconsistent, hkeys, hcount, hrule, rfl, rfl, rfl, rfl, rfl⟩

end Snapshot

end Rulebook
