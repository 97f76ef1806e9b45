import Rulebook.Proofs.SettingsFile
import Rulebook.Proofs.SettingsReading

/-!
# What two layers mean for the settings

Settings are loaded from a file and the environment over it. `given?` says which of the two gives
the value for a setting, and `meansSettings_iff` that the settings are decoded from what is given.
What is given may differ from what the one laid over the other has only where both have a table in
place of a setting (`Value.Alike`), and no setting is decoded from a table.

The rest follows the loader: which file is to be read (`Loader.Chooses`), what it sets (`FileSets`),
and when loading succeeds and with which settings (`Loader.load_eq_ok_iff`).
-/

namespace Rulebook.Settings

open Rulebook.Document

/-! ## Two layers -/

namespace Value

/-- A value that sections are read from: a table or a list. -/
def IsContainer (value : Value) : Prop := value.IsTable ∨ ∃ items, value = .list items

/-- An ascending table gives nothing twice. -/
theorem Ascending.isSection_iff {value : Value} (h : value.Ascending) (names : List String) :
    value.IsSection names ↔ value.IsContainer := by
  cases value with
  | table entries =>
    cases h with
    | table hkeys _ =>
      exact ⟨fun _ => .inl ⟨entries, rfl⟩, fun _ => hkeys.imp fun hlt heq =>
        absurd (heq ▸ hlt) (String.lt_irrefl _)⟩
    | other h => exact absurd rfl (h entries)
  | list items => exact ⟨fun _ => .inr ⟨items, rfl⟩, fun _ => trivial⟩
  | _ =>
    refine ⟨fun h => h.elim, fun h => ?_⟩
    rcases h with ⟨_, h⟩ | ⟨_, h⟩ <;> cases h

/-- What is laid over something is a table or a list when it was. -/
theorem isContainer_laidOver (upper lower : Value) :
    (upper.laidOver lower).IsContainer ↔ upper.IsContainer := by
  cases upper with
  | table above =>
    cases lower with
    | table below =>
      rw [laidOver]
      exact ⟨fun _ => .inl ⟨_, rfl⟩, fun _ => .inl ⟨_, rfl⟩⟩
    | _ => rfl
  | _ => rfl

/-- **Two values that no setting tells apart**: they are the same, or both are tables. -/
def Alike (value other : Option Value) : Prop :=
  value = other ∨ ∃ entries entries', value = some (.table entries) ∧ other = some (.table entries')

/-- A value laid over another is to no setting different from before. -/
theorem alike_laidOver? (upper lower : Option Value) :
    Alike (laidOver? upper lower) (upper.or lower) := by
  cases upper with
  | none => exact .inl rfl
  | some upper =>
    cases lower with
    | none => exact .inl rfl
    | some lower =>
      cases upper with
      | table above =>
        cases lower with
        | table below =>
          rw [laidOver?, laidOver]
          exact .inr ⟨_, _, rfl, rfl⟩
        | _ => exact .inl rfl
      | _ => exact .inl rfl

end Value

/-- **What is given for a setting by two layers**: by the upper one if it has the setting, else by
the lower one. Where the upper layer has the section as a list, the lower one has no say in it. -/
def given? (upper lower : Value) (sect name : String) (position : Nat) : Option Value :=
  match upper.get? sect, lower.get? sect with
  | some (.table above), some (.table below) => (Table.find? name above).or (Table.find? name below)
  | some above, _ => above.part? name position
  | none, below => below.bind (·.part? name position)

/-- No setting tells what two layers give from what is given by the one laid over the other. -/
theorem alike_given? {upper lower : Value} {sect : String}
    (hupper : ∀ value, upper.get? sect = some value → value.Ascending) (name : String)
    (position : Nat) :
    Value.Alike ((Value.laidOver? (upper.get? sect) (lower.get? sect)).bind
      (·.part? name position)) (given? upper lower sect name position) := by
  rw [given?]
  cases habove : upper.get? sect with
  | none => exact .inl rfl
  | some above =>
    cases lower.get? sect with
    | none => cases above <;> exact .inl rfl
    | some below =>
      cases above with
      | table entries =>
        cases below with
        | table entries' =>
          cases hupper _ habove with
          | table hkeys _ =>
            rw [Value.laidOver?, Value.laidOver, Option.bind_some, Value.part?,
              Value.find?_entriesOver hkeys]
            exact Value.alike_laidOver? _ _
          | other h => exact absurd rfl (h entries)
        | _ => exact .inl rfl
      | _ => exact .inl rfl

/-! ## Reading what two layers give -/

variable {α ρ : Type}

/-- What is no table is decoded from either of two values that are alike. -/
theorem decoded_of_alike {means : Value → α → Prop} {value other : Option Value} {start result : α}
    (hleaf : ∀ entries setting, ¬ means (.table entries) setting) (h : Value.Alike value other) :
    Decoded means value start result ↔ Decoded means other start result := by
  rcases h with rfl | ⟨entries, entries', rfl, rfl⟩
  · rfl
  · exact ⟨fun h => absurd h (hleaf _ _), fun h => absurd h (hleaf _ _)⟩

/-- Settings are decoded from either of two layers that are alike at each of them. -/
theorem decodedAll_of_alike {slots : List (Slot ρ)} {given given' : String → Nat → Option Value}
    {start result : ρ}
    (hleaves : ∀ slot ∈ slots, ∀ entries setting, ¬ slot.means (.table entries) setting)
    (h : ∀ position name, (namesOf slots)[position]? = some name →
      Value.Alike (given name position) (given' name position)) :
    DecodedAll slots given start result ↔ DecodedAll slots given' start result := by
  refine forall_congr' fun position => forall_congr' fun slot => forall_congr' fun hslot => ?_
  refine decoded_of_alike (hleaves slot (List.mem_of_getElem? hslot)) (h position _ ?_)
  rw [namesOf, List.getElem?_map, hslot, Option.map_some]

/-- A section that is not given has its defaults. -/
theorem decodedAll_none_iff {slots : List (Slot ρ)} (hlayout : Layout (partsOf slots))
    {start result : ρ} : DecodedAll slots (fun _ _ => none) start result ↔ result = start := by
  constructor
  · intro h
    refine hlayout.ext _ _ (List.forall_mem_map.2 fun slot hslot => ?_)
    obtain ⟨position, hposition⟩ := List.getElem?_of_mem hslot
    exact h position slot hposition
  · rintro rfl position slot -
    rfl

/-- A section is decoded setting by setting. -/
theorem decoded_meansSection_iff {slots : List (Slot ρ)} (hlayout : Layout (partsOf slots))
    {value : Option Value} {start result : ρ} :
    Decoded (Value.MeansSection slots start) value start result
      ↔ (∀ given, value = some given → given.IsSection (namesOf slots))
        ∧ DecodedAll slots (fun name position => value.bind (·.part? name position)) start
          result := by
  cases value with
  | none =>
    refine (decodedAll_none_iff hlayout).symm.trans ?_
    exact ⟨fun h => ⟨fun _ h => (nomatch h), h⟩, And.right⟩
  | some given => simp [Decoded, Value.MeansSection]

/-- What a table means for all settings is what it gives for each section. -/
theorem meansSettings_table_iff {value : Value} (hascending : value.Ascending)
    (htable : value.IsTable) {settings : Settings} :
    value.MeansSection (sections.map Section.slot) {} settings
      ↔ ∀ sect ∈ sections, Decoded (Value.MeansSection sect.slots (sect.get {}))
          (value.get? sect.name) (sect.get {}) (sect.get settings) := by
  obtain ⟨entries, rfl⟩ := htable
  constructor
  · rintro ⟨-, h⟩ sect hsect
    obtain ⟨position, hposition⟩ := List.getElem?_of_mem hsect
    exact h position sect.slot (by rw [List.getElem?_map, hposition, Option.map_some])
  · refine fun h => ⟨(hascending.isSection_iff _).2 (.inl ⟨entries, rfl⟩), ?_⟩
    intro position slot hslot
    rw [List.getElem?_map] at hslot
    obtain ⟨sect, hsect, rfl⟩ := Option.map_eq_some_iff.1 hslot
    exact h sect (List.mem_of_getElem? hsect)

/-- What is laid over a section can be read as one when it was a table or a list before. -/
theorem isSection_laidOver?_iff {upper lower : Option Value}
    (hupper : ∀ value, upper = some value → value.Ascending)
    (hlower : ∀ value, lower = some value → value.Ascending) (names : List String) :
    (∀ value, Value.laidOver? upper lower = some value → value.IsSection names)
      ↔ ∀ value, upper.or lower = some value → value.IsContainer := by
  cases upper with
  | none =>
    refine forall_congr' fun value => forall_congr' fun hvalue => ?_
    exact (hlower value hvalue).isSection_iff names
  | some above =>
    cases lower with
    | none =>
      refine forall_congr' fun value => forall_congr' fun hvalue => ?_
      exact (hupper value hvalue).isSection_iff names
    | some below =>
      have hascending := (hupper above rfl).laidOver (hlower below rfl)
      simp [Value.laidOver?, hascending.isSection_iff, Value.isContainer_laidOver]

/-- **What two layers mean for all settings.** -/
theorem meansSettings_iff {upper lower : Value} (hupper : upper.Ascending ∧ upper.IsTable)
    (hlower : lower.Ascending ∧ lower.IsTable) {settings : Settings} :
    (upper.laidOver lower).MeansSection (sections.map Section.slot) {} settings
      ↔ (∀ sect ∈ sections, ∀ value,
          (upper.get? sect.name).or (lower.get? sect.name) = some value → value.IsContainer)
        ∧ settings.DecodedFrom (given? upper lower) := by
  obtain ⟨hupper, above, rfl⟩ := hupper
  obtain ⟨hlower, below, rfl⟩ := hlower
  have htable : ((Value.table above).laidOver (.table below)).IsTable := by
    rw [Value.laidOver]
    exact ⟨_, rfl⟩
  rw [meansSettings_table_iff (hupper.laidOver hlower) htable, DecodedFrom, ← forall₂_and]
  refine forall_congr' fun sect => forall_congr' fun hsect => ?_
  rw [Value.get?_laidOver hupper, decoded_meansSection_iff sect.layout,
    isSection_laidOver?_iff (fun _ => hupper.get?) (fun _ => hlower.get?),
    decodedAll_of_alike sect.leaves fun position name _ => alike_given? (fun _ => hupper.get?) name
      position]

/-! ## Loading -/

/-- **A file is asked for**: by the loader, or else by a variable that is not empty. -/
inductive Loader.Asks (loader : Loader) (environment : List (String × String)) : String → Prop where
  /-- The loader asks for it. -/
  | loader {path : String} (h : loader.path = some path) : Asks loader environment path
  /-- A variable asks for it. -/
  | environment {path : String} (h : loader.path = none)
    (hvariable : Table.find? (loader.start ++ "_CONFIG_FILE") environment = some path)
    (hne : path ≠ "") : Asks loader environment path

/-- **The file to read**, if there is one. -/
inductive Loader.Chooses (loader : Loader) (world : Files.World)
    (environment : List (String × String)) : Option String → Prop where
  /-- A file that is asked for. -/
  | asked {path : String} (h : loader.Asks environment path) (hfile : world.isFile path = true) :
    Chooses loader world environment (some path)
  /-- The file in the directory to start from, when none is asked for. -/
  | found (h : ∀ path, ¬ loader.Asks environment path)
    (hfile : world.isFile (Path.join world.startPath "config.toml") = true) :
    Chooses loader world environment (some (Path.join world.startPath "config.toml"))
  /-- No file is asked for, and there is none. -/
  | nothing (h : ∀ path, ¬ loader.Asks environment path)
    (hfile : world.isFile (Path.join world.startPath "config.toml") = false) :
    Chooses loader world environment none

/-- A file in YAML, by its extension in letters of either case. -/
def IsYaml (path : String) : Prop :=
  ∃ extension, Path.extension? path = some extension
    ∧ (extension.toLower = "yaml" ∨ extension.toLower = "yml")

/-- **What the chosen file sets**; nothing is set by no file. -/
inductive FileSets (world : Files.World) : Option String → Value → Prop where
  /-- There is no file. -/
  | nothing : FileSets world none .empty
  /-- The file is in YAML. -/
  | yaml {path text : String} {value : Value} (h : IsYaml path)
    (htext : world.readText path = .ok text) (hvalue : Value.ofText text .yaml = .ok value) :
    FileSets world (some path) value
  /-- Any other file is in TOML. -/
  | toml {path text : String} {value : Value} (h : ¬ IsYaml path)
    (htext : world.readText path = .ok text) (hvalue : Value.ofText text .toml = .ok value) :
    FileSets world (some path) value

theorem Loader.requested_eq_some_iff {loader : Loader} {environment : List (String × String)}
    {path : String} : loader.requested environment = some path ↔ loader.Asks environment path := by
  rw [requested]
  constructor
  · intro h
    split at h
    · rename_i hpath
      exact .loader (hpath.trans h)
    · rename_i hpath
      rw [Option.filter_eq_some_iff] at h
      exact .environment hpath h.1 (by simpa using h.2)
  · intro h
    cases h with
    | loader h => rw [h]
    | environment h hvariable hne =>
      rw [h]
      refine Option.filter_eq_some_iff.2 ⟨hvariable, by simpa using hne⟩

/-- A file is chosen exactly as was said. -/
theorem Loader.filePath_eq_ok_iff {loader : Loader} {world : Files.World}
    {environment : List (String × String)} {chosen : Option String} :
    loader.filePath world environment = .ok chosen ↔ loader.Chooses world environment chosen := by
  rw [filePath]
  cases hrequested : loader.requested environment with
  | some path =>
    have hasks := requested_eq_some_iff.1 hrequested
    dsimp only
    constructor
    · intro h
      split at h
      · cases h
        exact .asked hasks ‹_›
      · cases h
    · intro h
      cases h with
      | asked h hfile =>
        rw [requested_eq_some_iff.2 h] at hrequested
        cases hrequested
        rw [if_pos hfile]
        rfl
      | found h _ => exact absurd hasks (h path)
      | nothing h _ => exact absurd hasks (h path)
  | none =>
    have hnot (path : String) : ¬ loader.Asks environment path := fun h =>
      Option.some_ne_none path ((requested_eq_some_iff.2 h).symm.trans hrequested)
    dsimp only [defaultFile]
    constructor
    · intro h
      cases h
      split
      · exact .found hnot ‹_›
      · exact .nothing hnot (Bool.eq_false_iff.2 ‹_›)
    · intro h
      cases h with
      | asked h _ => exact absurd h (hnot _)
      | found _ hfile => rw [if_pos hfile]; rfl
      | nothing _ hfile => rw [hfile]; rfl

theorem Format.ofPath_eq_yaml_iff {path : String} : Format.ofPath path = .yaml ↔ IsYaml path := by
  rw [Format.ofPath, IsYaml]
  cases Path.extension? path with
  | none => simp
  | some extension => simp [or_iff_not_imp_left]

theorem Format.ofPath_eq_toml_iff {path : String} : Format.ofPath path = .toml ↔ ¬ IsYaml path := by
  rw [← ofPath_eq_yaml_iff]
  cases Format.ofPath path <;> simp

/-- A file that is chosen is a layer exactly as was said. -/
theorem fileLayer_values_iff {world : Files.World} {path : String} {value : Value} :
    (∃ layer, Loader.fileLayer world path = .ok layer ∧ layer.values = value)
      ↔ FileSets world (some path) value := by
  have hlayer : (∃ layer, Loader.fileLayer world path = .ok layer ∧ layer.values = value)
      ↔ ∃ text, world.readText path = .ok text
        ∧ Value.ofText text (Format.ofPath path) = .ok value := by
    rw [Loader.fileLayer]
    constructor
    · rintro ⟨layer, h, rfl⟩
      dsimp only at h
      split at h
      · cases h
      · split at h
        · cases h
        · cases h
          exact ⟨_, ‹_›, ‹_›⟩
    · rintro ⟨text, htext, hvalue⟩
      rw [htext]
      dsimp only
      rw [hvalue]
      exact ⟨_, rfl, rfl⟩
  rw [hlayer]
  constructor
  · rintro ⟨text, htext, hvalue⟩
    cases hformat : Format.ofPath path with
    | yaml => exact .yaml (Format.ofPath_eq_yaml_iff.1 hformat) htext (hformat ▸ hvalue)
    | toml => exact .toml (Format.ofPath_eq_toml_iff.1 hformat) htext (hformat ▸ hvalue)
  · intro h
    cases h with
    | yaml h htext hvalue =>
      exact ⟨_, htext, by rw [Format.ofPath_eq_yaml_iff.2 h]; exact hvalue⟩
    | toml h htext hvalue =>
      exact ⟨_, htext, by rw [Format.ofPath_eq_toml_iff.2 h]; exact hvalue⟩

/-- What a file sets is an ascending table. -/
theorem FileSets.sound {world : Files.World} {chosen : Option String} {value : Value}
    (h : FileSets world chosen value) : value.Ascending ∧ value.IsTable := by
  cases h with
  | nothing => exact ⟨.table .nil fun _ h => absurd h List.not_mem_nil, _, rfl⟩
  | yaml _ _ hvalue => exact ascending_ofText hvalue
  | toml _ _ hvalue => exact ascending_ofText hvalue

/-- So is what the environment sets. -/
theorem Environment.sound_values (start : String) (environment : List (String × String)) :
    (values start environment).Ascending ∧ (values start environment).IsTable := by
  rw [values_eq]
  exact ⟨Value.ascending_layered fun value hvalue => (sound_setting? value hvalue).1,
    Value.isTable_layered fun value hvalue => (sound_setting? value hvalue).2⟩

/-- Layers are read as what they amount to. -/
theorem ofLayers_eq_ok_iff {layers : List Layer} {settings : Settings} :
    ofLayers layers = .ok settings
      ↔ (combine layers).MeansSection (sections.map Section.slot) {} settings := by
  rw [ofLayers]
  constructor
  · intro h
    split at h
    · rename_i read hread
      cases h
      exact decodes.sound (Reading.Yields.of_value hread)
    · cases h
  · intro h
    have hread : Settings.read (Focus.mk (combine layers) []) = pure settings := decodes.complete h
    rw [hread]
    rfl

/-- The layers below that of the environment. -/
def Loader.layersBelow (world : Files.World) : Option String → Except Error (List Layer)
  | none => pure []
  | some path => (fun layer => [layer]) <$> fileLayer world path

theorem Loader.load_eq (loader : Loader) (world : Files.World)
    (environment : List (String × String)) (names : Resolver) :
    loader.load world environment names
      = loader.filePath world environment >>= fun chosen =>
          layersBelow world chosen >>= fun below =>
            ofLayers (below ++ [loader.environmentLayer environment]) >>= fun settings =>
              settings.check names >>= fun _ => pure settings := by
  unfold load
  cases loader.filePath world environment with
  | error fault => rfl
  | ok chosen => cases chosen <;> rfl

/-- **Settings that the layers are read as are loaded** if they can be used. -/
theorem Loader.load_of_layers {loader : Loader} {world : Files.World}
    {environment : List (String × String)} (names : Resolver) {chosen : Option String}
    {below : List Layer} {settings : Settings} (hchosen : loader.Chooses world environment chosen)
    (hbelow : layersBelow world chosen = .ok below)
    (hread : ofLayers (below ++ [loader.environmentLayer environment]) = .ok settings) :
    loader.load world environment names = settings.check names >>= fun _ => pure settings := by
  simp only [load_eq, filePath_eq_ok_iff.2 hchosen, hbelow, hread, bind, Except.bind]

/-- The path that is looked at for a file: the one asked for, or else that of the file in the
directory to start from. -/
def Loader.sought (loader : Loader) (world : Files.World) (environment : List (String × String)) :
    String :=
  (loader.requested environment).getD (Path.join world.startPath defaultFile)

/-- Whichever file is chosen, it is at the sought path. -/
theorem Loader.Chooses.eq_sought {loader : Loader} {world : Files.World}
    {environment : List (String × String)} {path : String}
    (h : loader.Chooses world environment (some path)) :
    path = loader.sought world environment := by
  rw [sought]
  cases h with
  | asked h _ => rw [requested_eq_some_iff.2 h, Option.getD_some]
  | found h _ =>
    have hnone : loader.requested environment = none :=
      Option.eq_none_iff_forall_ne_some.2 fun path hpath => h path (requested_eq_some_iff.1 hpath)
    rw [hnone, Option.getD_none, defaultFile]

section SameFile

variable {loader : Loader} {world other : Files.World} {environment : List (String × String)}
  (hstart : other.start = world.start)
  (hnode : other.node (loader.sought world environment)
    = world.node (loader.sought world environment))
include hstart hnode

theorem Loader.filePath_of_sameFile :
    loader.filePath other environment = loader.filePath world environment := by
  have hstartPath : other.startPath = world.startPath := by
    rw [Files.World.startPath, hstart, Files.World.startPath]
  have hfile : other.isFile (loader.sought world environment)
      = world.isFile (loader.sought world environment) := by
    rw [Files.World.isFile, hnode, Files.World.isFile]
  rw [filePath, filePath, hstartPath]
  rw [sought] at hfile
  cases hrequested : loader.requested environment with
  | none | some path =>
    rw [hrequested] at hfile
    dsimp only [Option.getD] at hfile ⊢
    rw [hfile]

/-- **No file matters but the one at the sought path**, apart from where paths start. -/
theorem Loader.load_of_sameFile (names : Resolver) :
    loader.load other environment names = loader.load world environment names := by
  have hlayer : fileLayer other (loader.sought world environment)
      = fileLayer world (loader.sought world environment) := by
    simp only [fileLayer, shownPath, hstart, Files.World.readText, Files.World.readBytes, hnode]
  rw [load_eq, load_eq, filePath_of_sameFile hstart hnode]
  cases hpath : loader.filePath world environment with
  | error fault => rfl
  | ok chosen =>
    cases chosen with
    | none => rfl
    | some path =>
      obtain rfl := (filePath_eq_ok_iff.1 hpath).eq_sought
      simp only [bind, Except.bind, layersBelow, hlayer]

end SameFile

/-- The layers below set what the chosen file sets. -/
theorem Loader.layersBelow_iff (top : Layer) {world : Files.World} {chosen : Option String}
    {value : Value} :
    (∃ below, layersBelow world chosen = .ok below ∧ combine (below ++ [top]) = value)
      ↔ ∃ file, FileSets world chosen file
        ∧ value = top.values.laidOver (file.laidOver .empty) := by
  cases chosen with
  | none =>
    constructor
    · rintro ⟨below, h, rfl⟩
      cases h
      exact ⟨.empty, .nothing, rfl⟩
    · rintro ⟨file, h, rfl⟩
      cases h
      exact ⟨[], rfl, rfl⟩
  | some path =>
    constructor
    · rintro ⟨below, h, rfl⟩
      obtain ⟨layer, hlayer, rfl⟩ := map_eq_ok.1 h
      exact ⟨layer.values, fileLayer_values_iff.1 ⟨layer, hlayer, rfl⟩, rfl⟩
    · rintro ⟨file, h, rfl⟩
      obtain ⟨layer, hlayer, rfl⟩ := fileLayer_values_iff.2 h
      exact ⟨[layer], map_eq_ok.2 ⟨layer, hlayer, rfl⟩, rfl⟩

/-- What two layers give depends on nothing but their sections. -/
theorem given?_congr {upper lower lower' : Value} (h : ∀ sect, lower.get? sect = lower'.get? sect) :
    given? upper lower = given? upper lower' := by
  funext sect name position
  rw [given?, given?, h]

/-- **What a file and the environment can be read as**: their sections, one over the other, are
tables or lists. -/
def Readable (upper lower : Value) : Prop :=
  ∀ sect ∈ sections, ∀ value,
    (upper.get? sect.name).or (lower.get? sect.name) = some value → value.IsContainer

/-- What a file means under the environment. A file is itself laid over nothing, which leaves its
sections as they are. -/
theorem meansLayers_iff {upper file : Value} (hupper : upper.Ascending ∧ upper.IsTable)
    (hfile : file.Ascending ∧ file.IsTable) {settings : Settings} :
    (upper.laidOver (file.laidOver .empty)).MeansSection (sections.map Section.slot) {} settings
      ↔ Readable upper file ∧ settings.DecodedFrom (given? upper file) := by
  obtain ⟨hascending, entries, rfl⟩ := hfile
  have hempty : Value.empty.Ascending := .table .nil fun _ h => absurd h List.not_mem_nil
  have hget (sect : String) : ((Value.table entries).laidOver .empty).get? sect
      = (Value.table entries).get? sect := by
    rw [Value.empty, Value.get?_laidOver hascending]
    cases (Value.table entries).get? sect <;> rfl
  have htable : ((Value.table entries).laidOver .empty).IsTable := by
    rw [Value.empty, Value.laidOver]
    exact ⟨_, rfl⟩
  rw [meansSettings_iff hupper ⟨hascending.laidOver hempty, htable⟩, given?_congr hget, Readable]
  simp only [hget]

/-- **Settings are loaded exactly when** a file is chosen and gives something, it can be read under
the environment, the settings are decoded from both, and they can be used. -/
theorem Loader.load_eq_ok_iff {loader : Loader} {world : Files.World}
    {environment : List (String × String)} {names : Resolver} {settings : Settings} :
    loader.load world environment names = .ok settings
      ↔ ∃ chosen file, loader.Chooses world environment chosen ∧ FileSets world chosen file
        ∧ Readable (Environment.values loader.variableStart environment) file
        ∧ settings.DecodedFrom (given? (Environment.values loader.variableStart environment) file)
        ∧ settings.check names = .ok () := by
  have hupper := Environment.sound_values loader.variableStart environment
  constructor
  · intro h
    rw [load_eq] at h
    obtain ⟨chosen, hchosen, h⟩ := bind_eq_ok.1 h
    obtain ⟨below, hbelow, h⟩ := bind_eq_ok.1 h
    obtain ⟨read, hread, h⟩ := bind_eq_ok.1 h
    obtain ⟨_, hcheck, h⟩ := bind_eq_ok.1 h
    cases h
    obtain ⟨file, hfile, hcombine⟩ := (layersBelow_iff _).1 ⟨below, hbelow, rfl⟩
    have hmeans := ofLayers_eq_ok_iff.1 hread
    rw [hcombine] at hmeans
    obtain ⟨hreadable, hdecoded⟩ := (meansLayers_iff hupper hfile.sound).1 hmeans
    exact ⟨chosen, file, filePath_eq_ok_iff.1 hchosen, hfile, hreadable, hdecoded, hcheck⟩
  · rintro ⟨chosen, file, hchosen, hfile, hreadable, hdecoded, hcheck⟩
    obtain ⟨below, hbelow, hcombine⟩ :=
      (layersBelow_iff (loader.environmentLayer environment)).2 ⟨file, hfile, rfl⟩
    have hmeans := (meansLayers_iff hupper hfile.sound).2 ⟨hreadable, hdecoded⟩
    have hread : ofLayers (below ++ [loader.environmentLayer environment]) = .ok settings :=
      ofLayers_eq_ok_iff.2 (hcombine.symm ▸ hmeans)
    rw [load_of_layers names hchosen hbelow hread, hcheck]
    rfl

/-- One file is chosen. -/
theorem Loader.Chooses.unique {loader : Loader} {world : Files.World}
    {environment : List (String × String)} {chosen other : Option String}
    (h : loader.Chooses world environment chosen) (h' : loader.Chooses world environment other) :
    chosen = other :=
  Except.ok.inj ((filePath_eq_ok_iff.2 h).symm.trans (filePath_eq_ok_iff.2 h'))

/-- A file sets one value. -/
theorem FileSets.unique {world : Files.World} {chosen : Option String} {value other : Value}
    (h : FileSets world chosen value) (h' : FileSets world chosen other) : value = other := by
  cases chosen with
  | none =>
    cases h
    cases h'
    rfl
  | some path =>
    obtain ⟨layer, hlayer, rfl⟩ := fileLayer_values_iff.2 h
    obtain ⟨layer', hlayer', rfl⟩ := fileLayer_values_iff.2 h'
    rw [hlayer] at hlayer'
    cases hlayer'
    rfl

/-- Settings are decoded from what is given for them, whatever is given under other names. -/
theorem DecodedFrom.congr {given given' : String → String → Nat → Option Value}
    {settings : Settings} (h : ∀ sect ∈ sections, ∀ position name,
      (namesOf sect.slots)[position]? = some name →
        given sect.name name position = given' sect.name name position) :
    settings.DecodedFrom given ↔ settings.DecodedFrom given' := by
  refine forall_congr' fun sect => forall_congr' fun hsect => ?_
  exact decodedAll_of_alike sect.leaves fun position name hname => .inl (h sect hsect position name
    hname)

end Rulebook.Settings
