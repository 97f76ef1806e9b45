import Rulebook.Files.Build
import Rulebook.Proofs.Discovery
import Rulebook.Proofs.RuleLoading
import Rulebook.Proofs.Utf8

/-!
# Which rule directories are accepted

A rule directory has to meet a **schema**. The file about the plugin must be there and be what it
should be, and so must the metadata of each error key (`Directory.demand`); and each error key must
come to a short description and a reason, of its own or of the rule (`Directory.HasText`). Nothing
else is asked of it, and of what lies in it only the real directories are error keys
(`Directory.Holds`).

A directory that breaks the schema in several places is refused for one of them, and which one does
not depend on luck: `Rule.Refused` gives the plugin precedence over everything, and metadata over
missing texts. Of several faulty metadata the first in the order of the names is reported.
Missing texts are reported for all error keys together, in a list that is determined by what is
missing (`Rule.Lacking`).

The error keys of a rule that is accepted are those of its directories, one by one
(`Rule.forall₂_of_load`).
-/

namespace Rulebook

open Files (Node World)

variable {root : Node} {codes : LabelCodes} {directory held : Directory} {error : Error}

namespace Directory

/-! ## What a directory must have -/

/-- **The value of a file that a directory must have**, if it is there and its text is read. -/
def demand {α : Type} (root : Node) (directory : Directory) (file : String)
    (read : String → Except Error α) : Except Error α :=
  match directory.text? root file with
  | none => .error (.missingMandatoryFile file)
  | some text => read text

/-- A file is there and its text is read, if the value is. -/
theorem demand_eq_ok_iff {α : Type} {file : String} {read : String → Except Error α} {value : α} :
    directory.demand root file read = .ok value
      ↔ ∃ text, directory.text? root file = some text ∧ read text = .ok value := by
  rw [demand]
  cases directory.text? root file <;> simp

/-- **A real directory that lies directly in the directory.** A link to one is none. -/
inductive Holds (directory : Directory) : Directory → Prop where
  /-- It is an entry of the directory. -/
  | entry {name : String} {entries : List (String × Node)}
    (h : (name, Node.directory entries) ∈ directory.entries) :
    Holds directory ⟨⟨name :: directory.place, directory.links⟩, directory.pathOf name, entries⟩

theorem holds_iff : directory.Holds held ↔ held ∈ directory.subdirectories := by
  rw [mem_subdirectories]
  constructor
  · rintro ⟨h⟩
    exact ⟨_, _, h, rfl⟩
  · rintro ⟨name, entries, h, rfl⟩
    exact .entry h

/-- **An error key comes to a text** if the file is not empty in its directory or in that of the
rule. -/
def HasText (root : Node) (directory held : Directory) (file : String) : Prop :=
  held.text root file ≠ "" ∨ directory.text root file ≠ ""

instance (root : Node) (directory held : Directory) (file : String) :
    Decidable (HasText root directory held file) :=
  inferInstanceAs (Decidable (_ ∨ _))

/-- **The files that an error key lacks**, of the two that it must come to. -/
def lacks (root : Node) (directory held : Directory) : List String :=
  [genericFile, reasonFile].filter fun file => ¬ HasText root directory held file

theorem lacks_eq_nil_iff : lacks root directory held = []
    ↔ HasText root directory held genericFile ∧ HasText root directory held reasonFile := by
  simp [lacks]

end Directory

namespace Texts

/-- A text is missing in the end if it was missing in both places. -/
theorem isEmpty_orElse (own other : String) :
    (orElse own other).isEmpty = (own.isEmpty && other.isEmpty) := by
  rw [orElse]
  cases h : own.isEmpty <;> simp [h]

/-- **What is missing in the end** is what neither directory has. -/
theorem missing_inherit : ((ofDirectory root held).inherit (ofDirectory root directory)).missing
    = Directory.lacks root directory held := by
  have hfile (file : String) : ((held.text root file).isEmpty && (directory.text root file).isEmpty)
      = decide (¬ Directory.HasText root directory held file) := by
    rw [Bool.eq_iff_iff]
    simp [Directory.HasText]
  simp only [missing, inherit, isEmpty_orElse, ofDirectory, hfile, Directory.lacks,
    List.filter_cons, List.filter_nil]
  split <;> split <;> rfl

end Texts

/-! ## Error keys -/

namespace ErrorKey

/-- An error key is its metadata and the texts of its directory. -/
theorem load_eq : load root codes held
    = (fun metadata => { texts := Texts.ofDirectory root held, metadata }) <$>
      held.demand root metadataFile (Metadata.ofYaml · codes) := by
  rw [load, Directory.demand]
  cases held.text? root metadataFile <;> rfl

/-- **An error key is loaded when its metadata are.** -/
theorem exists_load_iff : (∃ key, load root codes held = .ok key)
    ↔ ∃ metadata, held.demand root metadataFile (Metadata.ofYaml · codes) = .ok metadata := by
  rw [load_eq]
  simp only [map_eq_ok]
  exact ⟨fun ⟨_, metadata, h, _⟩ => ⟨metadata, h⟩, fun ⟨metadata, h⟩ => ⟨_, metadata, h, rfl⟩⟩

/-- **An error key is refused for its metadata** and for nothing else. -/
theorem load_eq_error_iff : load root codes held = .error error
    ↔ held.demand root metadataFile (Metadata.ofYaml · codes) = .error error := by
  rw [load_eq]
  cases held.demand root metadataFile (Metadata.ofYaml · codes) <;>
    simp [Functor.map, Except.map]

/-- An error key that was loaded has the texts of its directory. -/
theorem texts_of_load {key : ErrorKey} (h : load root codes held = .ok key) :
    key.texts = Texts.ofDirectory root held := by
  obtain ⟨_, _, -, -, rfl⟩ := load_eq_ok_iff.1 h
  rfl

/-- All error keys are loaded when each of them is. -/
theorem exists_loadAll {directories : List Directory}
    (h : ∀ held ∈ directories, ∃ key, load root codes held = .ok key) :
    ∃ keys, loadAll root codes directories = .ok keys := by
  induction directories with
  | nil => exact ⟨[], rfl⟩
  | cons first rest ih =>
    obtain ⟨hfirst, hrest⟩ := List.forall_mem_cons.1 h
    obtain ⟨key, hkey⟩ := hfirst
    obtain ⟨keys, hkeys⟩ := ih hrest
    exact ⟨_, bind_eq_ok.2 ⟨key, hkey, bind_eq_ok.2 ⟨keys, hkeys, rfl⟩⟩⟩

/-- **Of several error keys that are refused, the first one in the order of the names counts.** -/
theorem loadAll_eq_error_iff {directories : List Directory}
    (hascending : directories.Pairwise fun held other => held.name < other.name) :
    loadAll root codes directories = .error error
      ↔ ∃ held ∈ directories, load root codes held = .error error
        ∧ ∀ other ∈ directories, other.name < held.name →
          ∃ key, load root codes other = .ok key := by
  induction directories with
  | nil => simp [loadAll, pure, Except.pure]
  | cons first rest ih =>
    obtain ⟨hfirst, hrest⟩ := List.pairwise_cons.1 hascending
    have hcons : loadAll root codes (first :: rest) = .error error
        ↔ load root codes first = .error error
          ∨ ∃ key, load root codes first = .ok key
            ∧ loadAll root codes rest = .error error := by
      rw [loadAll, bind_eq_error]
      simp only [bind_eq_error, pure, Except.pure, reduceCtorEq, and_false, exists_false, or_false]
    rw [hcons, ih hrest]
    constructor
    · rintro (herror | ⟨key, hkey, held, hheld, herror, hbefore⟩)
      · refine ⟨first, List.mem_cons_self .., herror, List.forall_mem_cons.2 ⟨fun hlt => ?_, ?_⟩⟩
        · exact absurd hlt (String.lt_irrefl _)
        · exact fun other hother hlt => absurd hlt (String.lt_asymm (hfirst other hother))
      · exact ⟨held, List.mem_cons_of_mem _ hheld, herror,
          List.forall_mem_cons.2 ⟨fun _ => ⟨key, hkey⟩, hbefore⟩⟩
    · rintro ⟨held, hheld, herror, hbefore⟩
      obtain ⟨hfirstBefore, hbefore⟩ := List.forall_mem_cons.1 hbefore
      rcases List.mem_cons.1 hheld with rfl | hheld
      · exact .inl herror
      · obtain ⟨key, hkey⟩ := hfirstBefore (hfirst held hheld)
        exact .inr ⟨key, hkey, held, hheld, herror, hbefore⟩

/-- **The error keys of a directory are loaded when the metadata of each are.** -/
theorem exists_loadAll_iff : (∃ keys, loadAll root codes directory.subdirectories = .ok keys)
    ↔ ∀ held, directory.Holds held →
      ∃ metadata, held.demand root metadataFile (Metadata.ofYaml · codes) = .ok metadata := by
  simp only [Directory.holds_iff, ← exists_load_iff]
  constructor
  · rintro ⟨keys, hkeys⟩ held hheld
    obtain ⟨key, -, -, hload⟩ := exists_right_of_forall₂ (loadAll_eq_ok_iff.1 hkeys) hheld
    exact ⟨_, hload⟩
  · exact exists_loadAll

/-- **They are refused for the first of those whose metadata are at fault.** -/
theorem loadAll_subdirectories_eq_error_iff (hd : directory.node.Distinct) :
    loadAll root codes directory.subdirectories = .error error
      ↔ ∃ held, directory.Holds held
        ∧ held.demand root metadataFile (Metadata.ofYaml · codes) = .error error
        ∧ ∀ other, directory.Holds other → other.name < held.name →
          ∃ metadata, other.demand root metadataFile (Metadata.ofYaml · codes) = .ok metadata := by
  rw [loadAll_eq_error_iff (Directory.subdirectories_ascending hd)]
  simp only [Directory.holds_iff, exists_load_iff, load_eq_error_iff]

end ErrorKey

/-! ## Metadata that are refused -/

namespace Condition

/-- A list of texts is refused for an item. -/
theorem exists_invalidItem_of_itemTexts {items : List Yaml.Value}
    (h : itemTexts items = .error error) : ∃ message, error = .invalidItem "condition" message := by
  induction items with
  | nil => cases h
  | cons item rest ih =>
    cases item with
    | text value =>
      rcases bind_eq_error.1 h with h | ⟨_, -, h⟩
      · exact ih h
      · cases h
    | null | flag | number | list | table | tagged => exact ⟨_, (Except.error.inj h).symm⟩

/-- **A condition is refused as an item.** -/
theorem exists_invalidItem {value : Option Yaml.Value} (h : ofValue value = .error error) :
    ∃ message, error = .invalidItem "condition" message := by
  cases value with
  | none => cases h
  | some value =>
    cases value with
    | null | text => cases h
    | list items =>
      rcases bind_eq_error.1 h with h | ⟨_, -, h⟩
      · exact exists_invalidItem_of_itemTexts h
      · cases h
    | flag | number | table | tagged => exact ⟨_, (Except.error.inj h).symm⟩

end Condition

/-- **Metadata are refused as a document or for their condition**, and never for a missing file. -/
theorem Metadata.ofYaml_ne_missing {text : String} (file : String) :
    Metadata.ofYaml text codes ≠ .error (.missingMandatoryFile file) := by
  intro h
  rcases bind_eq_error.1 h with h | ⟨written, -, h⟩
  · obtain ⟨message, cause, h⟩ := exists_parse_of_readYaml h
    cases h
  · rcases bind_eq_error.1 h with h | ⟨condition, -, h⟩
    · obtain ⟨message, h⟩ := Condition.exists_invalidItem h
      cases h
    · cases h

namespace Rule

/-! ## Rules -/

/-- The error keys are in the table in the order in which they were loaded. -/
theorem entries_inheritAll (texts : Texts) {keys : List (String × ErrorKey)}
    (hascending : keys.Pairwise fun key other => key.1 < other.1) :
    (inheritAll texts keys).entries
      = keys.map fun key => (key.1, { key.2 with texts := key.2.texts.inherit texts }) := by
  show (Table.ofList keys).entries.map _ = _
  rw [Table.entries_ofList hascending]

/-- Error keys that were loaded one after the other have the names of their directories. -/
theorem ascending_of_loadAll {keys : List (String × ErrorKey)} (hd : directory.node.Distinct)
    (h : ErrorKey.loadAll root codes directory.subdirectories = .ok keys) :
    keys.Pairwise fun key other => key.1 < other.1 := by
  have hnames : directory.subdirectories.map (·.name) = keys.map (·.1) := by
    refine List.forall₂_eq_eq_eq ▸ ?_
    rw [List.forall₂_map_left_iff, List.forall₂_map_right_iff]
    exact (ErrorKey.loadAll_eq_ok_iff.1 h).imp fun _ _ h => h.1
  have hascending := List.pairwise_map.2 (Directory.subdirectories_ascending hd)
  rw [hnames] at hascending
  exact List.pairwise_map.1 hascending

/-- **The error keys of a rule that is loaded are those of its directories**, one by one and in the
order of their names. Each has what was loaded for it and what it takes over from the rule. -/
theorem forall₂_of_load {rule : Rule} (hd : directory.node.Distinct)
    (h : load root codes directory = .ok rule) :
    List.Forall₂ (fun held entry => held.name = entry.1 ∧ ∃ own,
        ErrorKey.load root codes held = .ok own
          ∧ entry.2 = { own with texts := own.texts.inherit rule.texts })
      directory.subdirectories rule.errorKeys.entries := by
  obtain ⟨_, _, keys, -, -, hkeys, -, rfl⟩ := load_eq_ok_iff.1 h
  dsimp only
  rw [entries_inheritAll _ (ascending_of_loadAll hd hkeys), List.forall₂_map_right_iff]
  exact (ErrorKey.loadAll_eq_ok_iff.1 hkeys).imp fun held key ⟨hname, hload⟩ =>
    ⟨hname, key.2, hload, rfl⟩

/-- The error keys that lack a text, with the files that they lack, in the order of their names. -/
def lacking (root : Node) (directory : Directory) : List (String × List String) :=
  (directory.subdirectories.map fun held => (held.name, Directory.lacks root directory held)).filter
    fun entry => entry.2 ≠ []

/-- **A list of the error keys that lack a text**: each of them once, in the order of names, with
exactly the files that it lacks. -/
structure Lacking (root : Node) (directory : Directory) (list : List (String × List String)) :
    Prop where
  /-- The names ascend. -/
  ascending : list.Pairwise fun entry other => entry.1 < other.1
  /-- What is listed is what is lacking. -/
  mem_iff (entry : String × List String) : entry ∈ list
    ↔ ∃ held, directory.Holds held ∧ (held.name, Directory.lacks root directory held) = entry
      ∧ entry.2 ≠ []

theorem lacking_spec (root : Node) (hd : directory.node.Distinct) :
    Lacking root directory (lacking root directory) where
  ascending := by
    refine List.Pairwise.filter _ (List.pairwise_map.2 ?_)
    exact Directory.subdirectories_ascending hd
  mem_iff entry := by
    simp [lacking, Directory.holds_iff, ← exists_and_right, and_assoc]

/-- There is only one such list. -/
theorem Lacking.eq {list other : List (String × List String)} (h : Lacking root directory list)
    (h' : Lacking root directory other) : list = other :=
  Table.eq_of_ascending (r := fun entry other => entry.1 < other.1)
    (fun entry => String.lt_irrefl entry.1) (fun _ _ _ => String.lt_trans) h.ascending h'.ascending
    fun entry => (h.mem_iff entry).trans (h'.mem_iff entry).symm

/-- **What a rule is refused for in the end** are the error keys that lack a text. -/
theorem incomplete_inheritAll {keys : List (String × ErrorKey)} (hd : directory.node.Distinct)
    (h : ErrorKey.loadAll root codes directory.subdirectories = .ok keys) :
    incomplete (inheritAll (Texts.ofDirectory root directory) keys)
      = (lacking root directory).map fun entry => incompleteText entry.1 entry.2 := by
  rw [incomplete, entries_inheritAll _ (ascending_of_loadAll hd h), lacking]
  have hkeys := ErrorKey.loadAll_eq_ok_iff.1 h
  clear h
  generalize directory.subdirectories = directories at hkeys ⊢
  induction hkeys with
  | nil => rfl
  | @cons held key _ _ hfirst _ ih =>
    obtain ⟨hname, hload⟩ := hfirst
    simp only [List.map_cons, List.filterMap_cons, List.filter_cons, ErrorKey.texts_of_load hload,
      Texts.missing_inherit, hname, ih]
    cases Directory.lacks root directory held <;> simp

/-- **Why a rule is refused.** Each reason presupposes that none of those before it holds. -/
inductive Refused (root : Node) (codes : LabelCodes) (directory : Directory) : Error → Prop where
  /-- The plugin is at fault, whatever else is. -/
  | plugin {error : Error} (h : directory.demand root pluginFile Plugin.ofYaml = .error error) :
    Refused root codes directory error
  /-- The metadata of an error key are at fault, and those of no error key before it. -/
  | metadata {plugin : Plugin} {held : Directory} {error : Error}
    (hplugin : directory.demand root pluginFile Plugin.ofYaml = .ok plugin)
    (hheld : directory.Holds held)
    (h : held.demand root metadataFile (Metadata.ofYaml · codes) = .error error)
    (hbefore : ∀ other, directory.Holds other → other.name < held.name →
      ∃ metadata, other.demand root metadataFile (Metadata.ofYaml · codes) = .ok metadata) :
    Refused root codes directory error
  /-- Error keys lack texts. All of them are listed. -/
  | incomplete {plugin : Plugin} {list : List (String × List String)}
    (hplugin : directory.demand root pluginFile Plugin.ofYaml = .ok plugin)
    (hmetadata : ∀ held, directory.Holds held →
      ∃ metadata, held.demand root metadataFile (Metadata.ofYaml · codes) = .ok metadata)
    (hlacking : Lacking root directory list) (hsome : list ≠ []) :
    Refused root codes directory
      (incompleteError (list.map fun entry => incompleteText entry.1 entry.2))

/-- **A rule is loaded in three stages**: its plugin, its error keys, and what these lack. -/
theorem load_eq : load root codes directory = (do
    let plugin ← directory.demand root pluginFile Plugin.ofYaml
    let keys ← ErrorKey.loadAll root codes directory.subdirectories
    let errorKeys := inheritAll (Texts.ofDirectory root directory) keys
    if incomplete errorKeys = [] then
      pure { texts := Texts.ofDirectory root directory, plugin, errorKeys }
    else .error (incompleteError (incomplete errorKeys))) := by
  rw [load, Directory.demand]
  cases directory.text? root pluginFile with
  | none => rfl
  | some text =>
    refine bind_congr fun plugin => bind_congr fun keys => ?_
    dsimp only
    split
    · rename_i hnone
      rw [if_pos hnone]
    · rename_i hsome
      rw [if_neg hsome]

/-- **A rule is refused at one of the three stages.** -/
theorem load_eq_error_iff_stages (hd : directory.node.Distinct) :
    load root codes directory = .error error
      ↔ directory.demand root pluginFile Plugin.ofYaml = .error error
        ∨ ∃ plugin, directory.demand root pluginFile Plugin.ofYaml = .ok plugin
          ∧ (ErrorKey.loadAll root codes directory.subdirectories = .error error
            ∨ ∃ keys, ErrorKey.loadAll root codes directory.subdirectories = .ok keys
              ∧ lacking root directory ≠ []
              ∧ incompleteError ((lacking root directory).map
                fun entry => incompleteText entry.1 entry.2) = error) := by
  rw [load_eq, bind_eq_error]
  refine or_congr_right (exists_congr fun plugin => and_congr_right fun _ => ?_)
  rw [bind_eq_error]
  refine or_congr_right (exists_congr fun keys => and_congr_right fun hkeys => ?_)
  dsimp only
  rw [incomplete_inheritAll hd hkeys]
  cases lacking root directory <;> simp [pure, Except.pure]

/-- **A rule is refused with exactly these errors.** -/
theorem load_eq_error_iff (hd : directory.node.Distinct) :
    load root codes directory = .error error ↔ Refused root codes directory error := by
  rw [load_eq_error_iff_stages hd]
  constructor
  · rintro (h | ⟨plugin, hplugin, h | ⟨keys, hkeys, hsome, rfl⟩⟩)
    · exact .plugin h
    · obtain ⟨held, hheld, herror, hbefore⟩ :=
        (ErrorKey.loadAll_subdirectories_eq_error_iff hd).1 h
      exact .metadata hplugin hheld herror hbefore
    · exact .incomplete hplugin (ErrorKey.exists_loadAll_iff.1 ⟨keys, hkeys⟩)
        (lacking_spec root hd) hsome
  · rintro (h | ⟨hplugin, hheld, h, hbefore⟩ | ⟨hplugin, hmetadata, hlacking, hsome⟩)
    · exact .inl h
    · have hkeys := (ErrorKey.loadAll_subdirectories_eq_error_iff hd).2 ⟨_, hheld, h, hbefore⟩
      exact .inr ⟨_, hplugin, .inl hkeys⟩
    · obtain ⟨keys, hkeys⟩ := ErrorKey.exists_loadAll_iff.2 hmetadata
      obtain rfl := hlacking.eq (lacking_spec root hd)
      exact .inr ⟨_, hplugin, .inr ⟨keys, hkeys, hsome, rfl⟩⟩

/-- **A rule is loaded when its directory meets the schema.** -/
theorem exists_load_iff (hd : directory.node.Distinct) :
    (∃ rule, load root codes directory = .ok rule)
      ↔ (∃ plugin, directory.demand root pluginFile Plugin.ofYaml = .ok plugin)
        ∧ ∀ held, directory.Holds held →
          (∃ metadata, held.demand root metadataFile (Metadata.ofYaml · codes) = .ok metadata)
            ∧ Directory.HasText root directory held genericFile
            ∧ Directory.HasText root directory held reasonFile := by
  have hcomplete : lacking root directory = []
      ↔ ∀ held, directory.Holds held → Directory.lacks root directory held = [] := by
    simp [lacking, Directory.holds_iff]
  simp only [forall₂_and, ← Directory.lacks_eq_nil_iff, ← hcomplete, ← ErrorKey.exists_loadAll_iff]
  constructor
  · rintro ⟨rule, h⟩
    obtain ⟨text, plugin, keys, htext, hplugin, hkeys, hnone, -⟩ := load_eq_ok_iff.1 h
    rw [incomplete_inheritAll hd hkeys, List.map_eq_nil_iff] at hnone
    exact ⟨⟨plugin, Directory.demand_eq_ok_iff.2 ⟨text, htext, hplugin⟩⟩, ⟨keys, hkeys⟩, hnone⟩
  · rintro ⟨⟨plugin, hplugin⟩, ⟨keys, hkeys⟩, hnone⟩
    obtain ⟨text, htext, hplugin⟩ := Directory.demand_eq_ok_iff.1 hplugin
    refine ⟨_, load_eq_ok_iff.2 ⟨text, plugin, keys, htext, hplugin, hkeys, ?_, rfl⟩⟩
    rw [incomplete_inheritAll hd hkeys, hnone]
    rfl

/-- The names of the error keys are those of the directories. -/
theorem contains_errorKeys_iff {rule : Rule} (hd : directory.node.Distinct)
    (h : load root codes directory = .ok rule) (name : String) :
    rule.errorKeys.contains name = true ↔ ∃ held, directory.Holds held ∧ held.name = name := by
  have hkeys := forall₂_of_load hd h
  simp only [Table.contains_iff, Table.get?_eq_some_iff, Directory.holds_iff]
  constructor
  · rintro ⟨key, hkey⟩
    obtain ⟨held, hheld, hname, -⟩ := exists_left_of_forall₂ hkeys hkey
    exact ⟨held, hheld, hname⟩
  · rintro ⟨held, hheld, rfl⟩
    obtain ⟨⟨name, key⟩, hkey, rfl, -⟩ := exists_right_of_forall₂ hkeys hheld
    exact ⟨key, hkey⟩

/-- The plugin of a directory that is taken for that of a rule is not missing. -/
theorem demand_ne_missing (h : directory.isRule root = true) :
    directory.demand root pluginFile Plugin.ofYaml ≠ .error (.missingMandatoryFile pluginFile) := by
  rw [Directory.isRule_eq, Option.isSome_iff_exists] at h
  obtain ⟨text, htext⟩ := h
  rw [Directory.demand, htext]
  intro herror
  obtain ⟨message, cause, h⟩ := exists_parse_of_readYaml herror
  cases h

/-! ## What a rule directory must be -/

/-- **A rule directory is accepted exactly when it meets the schema**, and what it is refused for is
determined. It meets the schema when the plugin is there and is read, and each real directory in it
has metadata that are read and comes to a short description and a reason. The error keys of the rule
are then those directories. It is refused for the first of the reasons that holds. Where a directory
is taken for that of a rule because of the plugin, the plugin is not missing. -/
theorem load_accepts_exactly (root : Node) (codes : LabelCodes) {directory : Directory}
    (hd : directory.node.Distinct) :
    ((∃ rule, load root codes directory = .ok rule)
      ↔ (∃ plugin, directory.demand root pluginFile Plugin.ofYaml = .ok plugin)
        ∧ ∀ held, directory.Holds held →
          (∃ metadata, held.demand root metadataFile (Metadata.ofYaml · codes) = .ok metadata)
            ∧ Directory.HasText root directory held genericFile
            ∧ Directory.HasText root directory held reasonFile)
      ∧ (∀ rule, load root codes directory = .ok rule → ∀ name,
        rule.errorKeys.contains name = true ↔ ∃ held, directory.Holds held ∧ held.name = name)
      ∧ (∀ error, load root codes directory = .error error ↔ Refused root codes directory error)
      ∧ (directory.isRule root = true →
        load root codes directory ≠ .error (.missingMandatoryFile pluginFile)) := by
  refine ⟨exists_load_iff hd, fun rule => contains_errorKeys_iff hd,
    fun error => load_eq_error_iff hd, fun hrule h => ?_⟩
  cases (load_eq_error_iff hd).1 h with
  | plugin h => exact demand_ne_missing hrule h
  | metadata _ _ h =>
    rw [Directory.demand] at h
    split at h
    · exact absurd (Error.missingMandatoryFile.inj (Except.error.inj h)) (by decide)
    · exact Metadata.ofYaml_ne_missing pluginFile h

/-- A content with a rule whose error keys lack texts. There is a link to one of them as well. -/
def lackingContent : World := .ofPlaces [] [
  (["rule", "plugin.yaml"], .file []),
  (["rule", "later", "metadata.yaml"], .file []),
  (["rule", "first", "metadata.yaml"], .file []),
  (["rule", "first", "reason.md"], .file [120]),
  (["rule", "link"], .link "first")]

/-- The directory of the error key that has a reason. -/
def lackingFirst : Directory where
  place := ["first", "rule"]
  links := World.maxLinks
  path := Path.join "rule" "first"
  entries := [("metadata.yaml", .file []), ("reason.md", .file [120])]

/-- The directory of the error key that has no text. -/
def lackingLater : Directory where
  place := ["later", "rule"]
  links := World.maxLinks
  path := Path.join "rule" "later"
  entries := [("metadata.yaml", .file [])]

/-- The directory of the rule. -/
def lackingRule : Directory where
  place := ["rule"]
  links := World.maxLinks
  path := "rule"
  entries := [("plugin.yaml", .file []), ("later", lackingLater.node),
    ("first", lackingFirst.node), ("link", .link "first")]

/-- What that content holds. -/
def lackingRoot : Node := .directory [("rule", lackingRule.node)]

theorem lackingContent_root : lackingContent.root = lackingRoot := rfl

theorem holds_lackingRule (held : Directory) :
    lackingRule.Holds held ↔ held = lackingFirst ∨ held = lackingLater := by
  constructor
  · rintro ⟨h⟩
    simp only [lackingRule, List.mem_cons, Prod.mk.injEq, reduceCtorEq, and_false, false_or,
      List.not_mem_nil, or_false, Directory.node, Node.directory.injEq] at h
    rcases h with ⟨rfl, rfl⟩ | ⟨rfl, rfl⟩
    · exact .inr rfl
    · exact .inl rfl
  · rintro (rfl | rfl)
    · exact .entry (show ("first", lackingFirst.node) ∈ lackingRule.entries by simp [lackingRule])
    · exact .entry (show ("later", lackingLater.node) ∈ lackingRule.entries by simp [lackingRule])

/-- What each of the three directories has of the texts that an error key must come to. -/
theorem texts_lackingRule (file : String) (hfile : file = genericFile ∨ file = reasonFile) :
    lackingRule.text lackingRoot file = ""
      ∧ lackingFirst.text lackingRoot file = (if file = reasonFile then "x" else "")
      ∧ lackingLater.text lackingRoot file = "" := by
  have hname : file ≠ "." ∧ file ≠ ".." ∧ file.utf8ByteSize ≤ World.maxName := by
    rcases hfile with rfl | rfl <;> decide
  have hx : Text.decodeLenient [120] = "x" := Text.decodeLenient_encode "x"
  have hpath : Path.fits (lackingRule.pathOf file) = true
      ∧ Path.fits (lackingFirst.pathOf file) = true
      ∧ Path.fits (lackingLater.pathOf file) = true := by
    rcases hfile with rfl | rfl <;> decide
  rw [lackingRule.text_eq_ownText rfl hname hpath.1,
    lackingFirst.text_eq_ownText rfl hname hpath.2.1,
    lackingLater.text_eq_ownText rfl hname hpath.2.2]
  · rcases hfile with rfl | rfl
    · exact ⟨rfl, rfl, rfl⟩
    · exact ⟨rfl, hx, rfl⟩
  all_goals
    rcases hfile with rfl | rfl <;>
      simp [lackingRule, lackingFirst, lackingLater, Node.find?, genericFile, reasonFile]

/-- The rule is refused for both error keys, each with what it lacks, and not for the link. -/
theorem load_accepts_exactly_lackingContent : lackingRule.node.Distinct
    ∧ load lackingContent.root {} lackingRule = .error (.invalidContent
      ("some of the error keys are missing mandatory attributes: "
        ++ "first (generic.md), later (generic.md, reason.md)")) := by
  have hd : lackingRule.node.Distinct := by
    have hroot := lackingContent.distinct
    rw [lackingContent_root, lackingRoot] at hroot
    exact hroot.of_find? (show Node.find? "rule" _ = _ from rfl)
  have hempty : Text.decodeLenient [] = "" := Text.decodeLenient_encode ""
  have hplugin : lackingRule.demand lackingRoot pluginFile Plugin.ofYaml = .ok {} := by
    have htext : lackingRule.text? lackingRoot pluginFile = some "" := by
      rw [lackingRule.text?_of_find? rfl (by decide) (by decide) rfl, hempty]
    exact Directory.demand_eq_ok_iff.2 ⟨"", htext, rfl⟩
  have hmetadata (held : Directory) (hheld : lackingRule.Holds held) :
      ∃ metadata, held.demand lackingRoot metadataFile (Metadata.ofYaml · {}) = .ok metadata := by
    have htext : held.text? lackingRoot metadataFile = some "" := by
      rcases (holds_lackingRule held).1 hheld with rfl | rfl
      · rw [lackingFirst.text?_of_find? rfl (by decide) (by decide) rfl, hempty]
      · rw [lackingLater.text?_of_find? rfl (by decide) (by decide) rfl, hempty]
    exact ⟨_, Directory.demand_eq_ok_iff.2 ⟨"", htext, rfl⟩⟩
  obtain ⟨hgeneric, hfirstGeneric, hlaterGeneric⟩ := texts_lackingRule genericFile (.inl rfl)
  obtain ⟨hreason, hfirstReason, hlaterReason⟩ := texts_lackingRule reasonFile (.inr rfl)
  have hfirst : Directory.lacks lackingRoot lackingRule lackingFirst = [genericFile] := by
    rw [if_neg (by decide)] at hfirstGeneric
    rw [if_pos rfl] at hfirstReason
    simp [Directory.lacks, Directory.HasText, hgeneric, hfirstGeneric, hfirstReason]
  have hlater : Directory.lacks lackingRoot lackingRule lackingLater
      = [genericFile, reasonFile] := by
    simp [Directory.lacks, Directory.HasText, hgeneric, hreason, hlaterGeneric, hlaterReason]
  have hlacking : Lacking lackingRoot lackingRule
      [("first", [genericFile]), ("later", [genericFile, reasonFile])] := by
    refine ⟨by decide, fun entry => ⟨fun h => ?_, ?_⟩⟩
    · simp only [List.mem_cons, List.not_mem_nil, or_false] at h
      rcases h with rfl | rfl
      · exact ⟨lackingFirst, (holds_lackingRule _).2 (.inl rfl), by rw [hfirst]; rfl, by simp⟩
      · exact ⟨lackingLater, (holds_lackingRule _).2 (.inr rfl), by rw [hlater]; rfl, by simp⟩
    · rintro ⟨held, hheld, rfl, -⟩
      rcases (holds_lackingRule held).1 hheld with rfl | rfl
      · rw [hfirst]
        exact List.mem_cons_self ..
      · rw [hlater]
        exact List.mem_cons_of_mem _ (List.mem_singleton_self _)
  have hrefused := Refused.incomplete hplugin hmetadata hlacking (List.cons_ne_nil _ _)
  have herror : incompleteError
      ([("first", [genericFile]), ("later", [genericFile, reasonFile])].map
        fun entry => incompleteText entry.1 entry.2)
      = .invalidContent ("some of the error keys are missing mandatory attributes: "
        ++ "first (generic.md), later (generic.md, reason.md)") := by decide
  exact ⟨hd, ((load_accepts_exactly lackingContent.root {} hd).2.2.1 _).2 (herror ▸ hrefused)⟩

end Rule

end Rulebook
