import Rulebook.Settings.Load
import Rulebook.Proofs.RecordReading

/-!
# Settings that are read, field by field

A section of the settings is read from a table by the names of its settings, or from a list by their
positions; a setting that is not given has its default. `Decodes` says that a reader goes by what a
value means and by nothing else, wherever the value stands. It holds of the readers of single
settings, hence of that of a section (`decodes_section`), and hence of that of all settings, whose
sections are read in the same way once more (`decodes`).

So what is read can be told without the reader, setting by setting: each is decoded from the value
that is given for it. `DecodedFrom` says this of all settings, and asks for nothing but a value for
each name of a section, name of a setting and position in its section. This is the form in which
layers are compared.
-/

namespace Rulebook.Settings

open Rulebook.Document

variable {α ρ : Type}

/-! ## What a value says -/

namespace Value

/-- **The part of a section** with a name. A section that is a list has its parts in their order. -/
def part? (name : String) (position : Nat) : Value → Option Value
  | .table entries => Table.find? name entries
  | .list items => items[position]?
  | _ => none

/-- **A value that a section can be read from**: a list, or a table that gives no known name
twice. -/
def IsSection (names : List String) : Value → Prop
  | .table entries => Once names entries
  | .list _ => True
  | _ => False

/-- The text that a value is. -/
def text? : Value → Option String
  | .text value => some value
  | .letter value => some (String.singleton value)
  | _ => none

/-- The truth value that a value is. -/
def flag? : Value → Option Bool
  | .flag value => some value
  | _ => none

/-- The text that a value is, or none if there is no value. -/
def optionalText? : Value → Option (Option String)
  | .unit => some none
  | value => some <$> value.text?

/-- A value means what it is by some rule. -/
def Means (decode : Value → Option α) (value : Value) (meaning : α) : Prop :=
  decode value = some meaning

end Value

/-! ## Reading a value -/

/-- **A reader goes by what a value means**: it reads what the value means and nothing else,
wherever the value stands. -/
structure Decodes (read : Focus → Reading α) (means : Value → α → Prop) : Prop where
  /-- What is read is what the value means. -/
  sound {focus : Focus} {value : α} (h : (read focus).Yields value) : means focus.value value
  /-- What the value means is read. -/
  complete {focus : Focus} {value : α} (h : means focus.value value) : read focus = pure value

theorem not_yields_mismatch (value : Value) (expected : String) (result : α) :
    ¬ (value.mismatch expected).Yields result :=
  Reading.Yields.not_refuse _ result

/-- Texts are read as they are, whatever was expected. -/
theorem decodes_text (expected : String) :
    Decodes (Source.text expected) (Value.Means Value.text?) where
  sound {focus text} h := by
    replace h := Reading.Yields.of_atPlace h
    obtain ⟨value, place⟩ := focus
    cases value with
    | text value => exact congrArg some (Reading.Yields.pure_iff.1 h)
    | letter value => exact congrArg some (Reading.Yields.pure_iff.1 h)
    | _ => exact absurd h (not_yields_mismatch _ _ _)
  complete {focus text} h := by
    obtain ⟨value, place⟩ := focus
    cases value with
    | text value => cases h; rfl
    | letter value => cases h; rfl
    | _ => cases h

/-- So are truth values. -/
theorem decodes_flag : Decodes Source.flag (Value.Means Value.flag?) where
  sound {focus flag} h := by
    replace h := Reading.Yields.of_atPlace h
    obtain ⟨value, place⟩ := focus
    cases value with
    | flag value => exact congrArg some (Reading.Yields.pure_iff.1 h)
    | _ => exact absurd h (not_yields_mismatch _ _ _)
  complete {focus flag} h := by
    obtain ⟨value, place⟩ := focus
    cases value with
    | flag value => cases h; rfl
    | _ => cases h

theorem readOption_of_ne_unit {read : Focus → Reading α} {focus : Focus}
    (h : focus.value ≠ .unit) : readOption read focus = some <$> read focus := by
  obtain ⟨value, place⟩ := focus
  cases value with
  | unit => exact absurd rfl h
  | _ => rfl

theorem Value.optionalText?_of_ne_unit {value : Value} (h : value ≠ .unit) :
    value.optionalText? = some <$> value.text? := by
  cases value with
  | unit => exact absurd rfl h
  | _ => rfl

/-- A text may be missing where that is allowed. -/
theorem decodes_optionalText :
    Decodes (readOption readPath) (Value.Means Value.optionalText?) where
  sound {focus text} h := by
    by_cases hunit : focus.value = .unit
    · obtain ⟨value, place⟩ := focus
      cases hunit
      exact congrArg some (Reading.Yields.pure_iff.1 h)
    · rw [readOption_of_ne_unit hunit] at h
      obtain ⟨path, hpath, rfl⟩ := h.of_map
      have htext : focus.value.text? = some path := (decodes_text "path string").sound hpath
      rw [Value.Means, Value.optionalText?_of_ne_unit hunit, htext]
      rfl
  complete {focus text} h := by
    by_cases hunit : focus.value = .unit
    · obtain ⟨value, place⟩ := focus
      cases hunit
      cases h
      rfl
    · rw [Value.Means, Value.optionalText?_of_ne_unit hunit] at h
      obtain ⟨path, hpath, rfl⟩ := Option.map_eq_some_iff.1 h
      have hread : readPath focus = pure path := (decodes_text "path string").complete hpath
      rw [readOption_of_ne_unit hunit, hread, map_pure]

/-! ## Reading a section -/

/-- **A setting of a section**: a part that the section may lack, and what its values mean. -/
structure Slot (ρ : Type) where
  /-- The part of the section. -/
  part : Part Focus ρ
  /-- What a value means for it. -/
  means : Value → part.Kind → Prop
  /-- The reader goes by that. -/
  decodes : Decodes part.read means
  /-- It may be missing. -/
  optional : part.needed = false

/-- A setting with a name. -/
def Slot.of {read : Focus → Reading α} {means : Value → α → Prop} (name : String)
    (decodes : Decodes read means) (set : α → ρ → ρ) (get : ρ → α) : Slot ρ :=
  ⟨⟨α, name, false, read, set, get⟩, means, decodes, rfl⟩

/-- **A setting is decoded** from the value that is given for it, or has its default if none is. -/
def Decoded (means : Value → α → Prop) (given : Option Value) (default setting : α) : Prop :=
  match given with
  | none => setting = default
  | some value => means value setting

/-- The parts of settings. -/
def partsOf (slots : List (Slot ρ)) : List (Part Focus ρ) := slots.map (·.part)

/-- The names of settings. -/
def namesOf (slots : List (Slot ρ)) : List String := slots.map (·.part.name)

/-- **Settings are decoded** from what is given under their names or at their positions. -/
def DecodedAll (slots : List (Slot ρ)) (given : String → Nat → Option Value) (start result : ρ) :
    Prop :=
  ∀ (position : Nat) (slot : Slot ρ), slots[position]? = some slot →
    Decoded slot.means (given slot.part.name position) (slot.part.get start) (slot.part.get result)

/-- The entries of a table, each with its place. -/
theorem Focus.fields_table (title : String) (entries : List (String × Value)) (place : Place) :
    Source.fields title (Focus.mk (.table entries) place)
      = pure (.named ⟨keyedBy (fun name => ⟨.text name, place⟩)
          (entries.map fun entry => (entry.1, ⟨entry.2, .key entry.1 :: place⟩)), none⟩) := by
  rw [keyedBy, List.map_map]
  rfl

/-- What is found in a table has a place. -/
theorem Focus.find?_entries (place : Place) (name : String) (entries : List (String × Value)) :
    Table.find? name (entries.map fun entry => (entry.1, Focus.mk entry.2 (.key entry.1 :: place)))
      = (Table.find? name entries).map fun value => ⟨value, .key name :: place⟩ := by
  induction entries with
  | nil => rfl
  | cons entry rest ih =>
    rw [List.map_cons, Table.find?, Table.find?, ih]
    split
    · rename_i h
      rw [h]
      rfl
    · rfl

/-- The items of a list, each with its place. -/
theorem Focus.fields_list (title : String) (items : List Value) (place : Place) :
    Source.fields title (Focus.mk (.list items) place)
      = pure (.listed ⟨((Focus.mk (.list items) place).itemsOf items).parts, none⟩) := rfl

/-- What is found in a list has a place. -/
theorem Focus.getElem?_items (place : Place) (position : Nat) (items : List Value) :
    ((Focus.mk (.list items) place).itemsOf items).parts[position]?
      = items[position]?.map fun value => ⟨value, .index position :: place⟩ := by
  simp [Focus.itemsOf, List.getElem?_zipIdx, Option.map_map, Function.comp_def]

theorem Focus.within_yields {focus : Focus} (reading : Reading α) (value : α)
    (h : (Source.within focus reading).Yields value) : reading.Yields value :=
  Reading.Yields.of_atPlace h

section Slots

variable {slot : Slot ρ} {given : Option Value} {place : Place} {start result : ρ}

/-- What a part holds is decoded from what is given for it. -/
theorem Slot.decoded_of_holds
    (h : slot.part.Holds (given.map fun value => ⟨value, place⟩) start result) :
    Decoded slot.means given (slot.part.get start) (slot.part.get result) := by
  cases given with
  | none => exact h
  | some value => exact slot.decodes.sound h

/-- What is decoded can be read. -/
theorem Slot.readable_of_decoded
    (h : Decoded slot.means given (slot.part.get start) (slot.part.get result)) :
    slot.part.Readable (given.map fun value => ⟨value, place⟩) start result := by
  cases given with
  | none => exact ⟨slot.optional, h⟩
  | some value => exact slot.decodes.complete h

end Slots

/-- **What a value means for a section** with given settings. -/
def Value.MeansSection (slots : List (Slot ρ)) (start : ρ) (value : Value) (result : ρ) : Prop :=
  value.IsSection (namesOf slots) ∧ DecodedAll slots (value.part? · ·) start result

/-- **A section goes by what its value gives for each setting.** -/
theorem decodes_section {slots : List (Slot ρ)} (title : String) (start : ρ)
    (hlayout : Layout (partsOf slots)) :
    Decodes (readRecord title start ((partsOf slots).map Part.field))
      (Value.MeansSection slots start) := by
  have hnames : (partsOf slots).map (·.name) = namesOf slots := by
    simp [partsOf, namesOf, Function.comp_def]
  constructor
  · rintro ⟨value, place⟩ result h
    cases value with
    | table entries =>
      obtain ⟨honce, hparts⟩ := hlayout.of_readRecord_named (fun _ => rfl) Focus.within_yields
        (Focus.fields_table title entries place) h
      rw [hnames] at honce
      refine ⟨List.pairwise_map.1 honce, fun position slot hslot => ?_⟩
      have hholds := (hparts slot.part (List.mem_map_of_mem (List.mem_of_getElem? hslot))).2
      rw [Focus.find?_entries] at hholds
      exact slot.decoded_of_holds hholds
    | list items =>
      refine ⟨trivial, fun position slot hslot => ?_⟩
      have hpart : (partsOf slots)[position]? = some slot.part := by
        rw [partsOf, List.getElem?_map, hslot, Option.map_some]
      have hholds := (hlayout.of_readRecord_listed Focus.within_yields
        (Focus.fields_list title items place) h hpart).2
      rw [Focus.getElem?_items] at hholds
      exact slot.decoded_of_holds hholds
    | _ =>
      obtain ⟨_, hfields, -⟩ := (Focus.within_yields _ _ h).of_bind
      exact absurd hfields (not_yields_mismatch _ _ _)
  · rintro ⟨value, place⟩ result ⟨hsection, hdecoded⟩
    cases value with
    | table entries =>
      refine hlayout.readRecord_named (fun _ => rfl) (fun _ => rfl)
        (Focus.fields_table title entries place) (fun _ _ => rfl) ?_ ?_
      · rw [hnames]
        exact List.pairwise_map.2 hsection
      · refine List.forall_mem_map.2 fun slot hslot => ?_
        obtain ⟨position, hposition⟩ := List.getElem?_of_mem hslot
        rw [Focus.find?_entries]
        exact slot.readable_of_decoded (hdecoded position slot hposition)
    | list items =>
      refine hlayout.readRecord_listed (fun _ => rfl) (Focus.fields_list title items place)
        rfl fun position part hpart => ?_
      rw [partsOf, List.getElem?_map] at hpart
      obtain ⟨slot, hslot, rfl⟩ := Option.map_eq_some_iff.1 hpart
      rw [Focus.getElem?_items]
      exact slot.readable_of_decoded (hdecoded position slot hslot)
    | _ => exact hsection.elim

/-! ## The sections -/

/-- The settings of the server, in their order. -/
def Server.slots : List (Slot Server) := [
  .of "address" (decodes_text "a string") (fun address server => { server with address })
    (·.address),
  .of "api_prefix" (decodes_text "a string") (fun apiPrefix server => { server with apiPrefix })
    (·.apiPrefix),
  .of "api_spec_file" (decodes_text "path string")
    (fun apiSpecFile server => { server with apiSpecFile }) (·.apiSpecFile),
  .of "auth" decodes_flag (fun auth server => { server with auth }) (·.auth),
  .of "auth_type" (decodes_text "a string") (fun authType server => { server with authType })
    (·.authType),
  .of "enable_cors" decodes_flag (fun enableCors server => { server with enableCors })
    (·.enableCors)]

theorem Server.layout : Layout (partsOf slots) where
  names := by simp [partsOf, slots, Slot.of]
  get_set := by simp [partsOf, slots, Slot.of]
  get_set_of_ne := by simp [partsOf, slots, Slot.of]
  ext record other h := by
    cases record
    cases other
    simpa [partsOf, slots, Slot.of] using h

/-- The setting of the groups. -/
def Groups.slots : List (Slot Groups) := [
  .of "config_path" (decodes_text "path string")
    (fun configPath groups => { groups with configPath }) (·.configPath)]

theorem Groups.layout : Layout (partsOf slots) where
  names := by simp [partsOf, slots, Slot.of]
  get_set := by simp [partsOf, slots, Slot.of]
  get_set_of_ne := by simp [partsOf, slots, Slot.of]
  ext record other h := by
    cases record
    cases other
    simpa [partsOf, slots, Slot.of] using h

/-- The setting of the rules. -/
def Content.slots : List (Slot Content) := [
  .of "path" (decodes_text "path string") (fun path content => { content with path }) (·.path)]

theorem Content.layout : Layout (partsOf slots) where
  names := by simp [partsOf, slots, Slot.of]
  get_set := by simp [partsOf, slots, Slot.of]
  get_set_of_ne := by simp [partsOf, slots, Slot.of]
  ext record other h := by
    cases record
    cases other
    simpa [partsOf, slots, Slot.of] using h

/-- The setting of the counters. -/
def Metrics.slots : List (Slot Metrics) := [
  .of "namespace" (decodes_text "a string")
    (fun space metrics => { metrics with space }) (·.space)]

theorem Metrics.layout : Layout (partsOf slots) where
  names := by simp [partsOf, slots, Slot.of]
  get_set := by simp [partsOf, slots, Slot.of]
  get_set_of_ne := by simp [partsOf, slots, Slot.of]
  ext record other h := by
    cases record
    cases other
    simpa [partsOf, slots, Slot.of] using h

/-- The settings of the log, in their order. -/
def Logging.slots : List (Slot Logging) := [
  .of "level" (decodes_text "a string") (fun level logging => { logging with level }) (·.level),
  .of "json_format" decodes_flag
    (fun jsonFormat logging => { logging with jsonFormat }) (·.jsonFormat),
  .of "file_output" decodes_optionalText
    (fun fileOutput logging => { logging with fileOutput }) (·.fileOutput),
  .of "logging_to_cloud_watch_enabled" decodes_flag
    (fun cloudWatchEnabled logging => { logging with cloudWatchEnabled }) (·.cloudWatchEnabled)]

theorem Logging.layout : Layout (partsOf slots) where
  names := by simp [partsOf, slots, Slot.of]
  get_set := by simp [partsOf, slots, Slot.of]
  get_set_of_ne := by simp [partsOf, slots, Slot.of]
  ext record other h := by
    cases record
    cases other
    simpa [partsOf, slots, Slot.of] using h

/-- The settings of the cloud, in their order. -/
def CloudWatch.slots : List (Slot CloudWatch) := [
  .of "aws_access_id" (decodes_text "a string")
    (fun accessId cloud => { cloud with accessId }) (·.accessId),
  .of "aws_secret_key" (decodes_text "a string")
    (fun secretKey cloud => { cloud with secretKey }) (·.secretKey),
  .of "aws_session_token" (decodes_text "a string")
    (fun sessionToken cloud => { cloud with sessionToken }) (·.sessionToken),
  .of "aws_region" (decodes_text "a string")
    (fun region cloud => { cloud with region }) (·.region),
  .of "log_group" (decodes_text "a string")
    (fun logGroup cloud => { cloud with logGroup }) (·.logGroup),
  .of "stream_name" (decodes_text "a string")
    (fun streamName cloud => { cloud with streamName }) (·.streamName),
  .of "debug" decodes_flag (fun debug cloud => { cloud with debug }) (·.debug)]

theorem CloudWatch.layout : Layout (partsOf slots) where
  names := by simp [partsOf, slots, Slot.of]
  get_set := by simp [partsOf, slots, Slot.of]
  get_set_of_ne := by simp [partsOf, slots, Slot.of]
  ext record other h := by
    cases record
    cases other
    simpa [partsOf, slots, Slot.of] using h

/-! ## All settings -/

/-- **A section of the settings.** -/
structure Section where
  /-- What is kept in it. -/
  Kind : Type
  /-- Its key. -/
  name : String
  /-- What messages call it. -/
  title : String
  /-- Its settings. -/
  slots : List (Slot Kind)
  /-- Stores the section. -/
  set : Kind → Settings → Settings
  /-- The section that is stored. -/
  get : Settings → Kind
  /-- The settings make up the section. -/
  layout : Layout (partsOf slots)
  /-- No setting is a table. -/
  leaves : ∀ slot ∈ slots, ∀ entries setting, ¬ slot.means (.table entries) setting

/-- Reads a section. -/
def Section.read (sect : Section) : Focus → Reading sect.Kind :=
  readRecord sect.title (sect.get {}) ((partsOf sect.slots).map Part.field)

/-- A section goes by what is given for each of its settings. -/
theorem Section.decodes (sect : Section) :
    Decodes sect.read (Value.MeansSection sect.slots (sect.get {})) :=
  decodes_section _ _ sect.layout

/-- No text, truth value or missing text is a table. -/
theorem not_means_table (entries : List (String × Value)) :
    (∀ text, ¬ Value.Means Value.text? (.table entries) text)
      ∧ (∀ flag, ¬ Value.Means Value.flag? (.table entries) flag)
      ∧ ∀ text, ¬ Value.Means Value.optionalText? (.table entries) text :=
  ⟨fun _ h => (nomatch h), fun _ h => (nomatch h), fun _ h => nomatch h⟩

/-- The sections, in their order. -/
def sections : List Section := [
  ⟨Server, "server", "struct ServerConfig", Server.slots,
    fun server settings => { settings with server }, (·.server), Server.layout,
    by simp [Server.slots, Slot.of, not_means_table]⟩,
  ⟨Groups, "groups", "struct GroupsConfig", Groups.slots,
    fun groups settings => { settings with groups }, (·.groups), Groups.layout,
    by simp [Groups.slots, Slot.of, not_means_table]⟩,
  ⟨Content, "content", "struct ContentConfig", Content.slots,
    fun content settings => { settings with content }, (·.content), Content.layout,
    by simp [Content.slots, Slot.of, not_means_table]⟩,
  ⟨Metrics, "metrics", "struct MetricsConfig", Metrics.slots,
    fun metrics settings => { settings with metrics }, (·.metrics), Metrics.layout,
    by simp [Metrics.slots, Slot.of, not_means_table]⟩,
  ⟨Logging, "logging", "struct LoggingConfig", Logging.slots,
    fun logging settings => { settings with logging }, (·.logging), Logging.layout,
    by simp [Logging.slots, Slot.of, not_means_table]⟩,
  ⟨CloudWatch, "cloudwatch", "struct CloudWatchConfig", CloudWatch.slots,
    fun cloudWatch settings => { settings with cloudWatch }, (·.cloudWatch), CloudWatch.layout,
    by simp [CloudWatch.slots, Slot.of, not_means_table]⟩]

/-- A section as a part of the settings. -/
def Section.slot (sect : Section) : Slot Settings := .of sect.name sect.decodes sect.set sect.get

theorem layout : Layout (partsOf (sections.map Section.slot)) where
  names := by simp [partsOf, sections, Section.slot, Slot.of]
  get_set := by simp [partsOf, sections, Section.slot, Slot.of]
  get_set_of_ne := by simp [partsOf, sections, Section.slot, Slot.of]
  ext record other h := by
    cases record
    cases other
    simpa [partsOf, sections, Section.slot, Slot.of] using h

theorem read_eq : (Settings.read : Focus → Reading Settings)
    = readRecord "struct AppConfig" {} ((partsOf (sections.map Section.slot)).map Part.field) := rfl

/-- **Settings go by what their value gives for each section.** -/
theorem decodes : Decodes Settings.read (Value.MeansSection (sections.map Section.slot) {}) := by
  rw [read_eq]
  exact decodes_section _ {} layout

/-- **Settings are decoded** from what is given for each, by the name of its section and by its own
name or position there. -/
def DecodedFrom (given : String → String → Nat → Option Value) (settings : Settings) : Prop :=
  ∀ sect ∈ sections, DecodedAll sect.slots (given sect.name) (sect.get {}) (sect.get settings)

end Rulebook.Settings
