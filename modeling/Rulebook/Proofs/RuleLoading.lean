import Rulebook.Proofs.Tree
import Rulebook.Rule.Directory
import Mathlib.Data.List.Forall2

/-!
# What a loaded rule is made of

The texts of a rule and of its error keys are files of their directories; where a file lies in the
directory itself, `Directory.text?_of_find?` gives its text.

A rule and an error key are loaded in steps, any of which may fail. What a success says is stated
once for each of them (`ErrorKey.load_eq_ok_iff`, `Rule.load_eq_ok_iff`), so that the steps need not
be gone through again. `Rule.exists_own` says where an error key of a loaded rule comes from, and
`Rule.sound_of_load` what holds of every rule that has been loaded.

Nothing else of a tree matters to a rule but the texts of a few files: directories that have the
same texts there (`Directory.ReadsLike`) are loaded with the same result (`Rule.load_congr`), a
failure included.
-/

namespace Rulebook

open Files (Node World)

variable {root : Node} {codes : LabelCodes} {directory : Directory}

/-! ## Files -/

/-- The files of the texts. -/
def Directory.textFiles : List String :=
  [genericFile, summaryFile, reasonFile, resolutionFile, moreInfoFile]

/-- The text of a file; nothing else has one. -/
def Files.Node.text? : Node → Option String
  | .file bytes => some (Text.decodeLenient bytes)
  | _ => none

namespace Directory

/-- A directory is that of a rule when the text about the plugin is there. -/
theorem isRule_eq (root : Node) (directory : Directory) :
    directory.isRule root = (directory.text? root pluginFile).isSome := by
  rw [isRule, text?]
  split <;> simp [*]

section Own

variable {name : String} (h : directory.toPosition.node? root = some (.directory directory.entries))
  (hname : name ≠ "." ∧ name ≠ ".." ∧ name.utf8ByteSize ≤ World.maxName)
  (hpath : Path.fits (directory.pathOf name) = true)
include h hname hpath

/-- The text under a name that is no link is that of the entry. -/
theorem text?_of_entry {node : Node} (hfind : Node.find? name directory.entries = some node)
    (hnode : ∀ target, node ≠ .link target) : directory.text? root name = node.text? := by
  have hfollow : World.follow root directory.toPosition [name]
      = .ok ⟨name :: directory.place, directory.links⟩ := by
    rw [World.follow_cons, World.step_eq_stepInto h hname, World.stepInto_entry hfind hnode]
    exact World.follow_nil _ _
  rw [text?, resolve?, if_pos hpath, hfollow]
  dsimp only
  rw [Files.Position.node?_cons h, hfind]
  cases node <;> rfl

/-- **The text of a file that lies in the directory itself.** -/
theorem text?_of_find? {bytes : List UInt8}
    (hfind : Node.find? name directory.entries = some (.file bytes)) :
    directory.text? root name = some (Text.decodeLenient bytes) :=
  text?_of_entry h hname hpath hfind (by simp)

/-- Where nothing lies there is no text. -/
theorem text?_of_find?_none (hfind : Node.find? name directory.entries = none) :
    directory.text? root name = none := by
  have hstep : World.step root directory.toPosition name = .error .notFound := by
    rw [World.step_eq_stepInto h hname, World.stepInto, hfind]
    rfl
  rw [text?, resolve?, if_pos hpath, World.follow_cons, hstep]
  rfl

end Own

/-- The text of an entry, empty when it is no file. -/
def ownText (directory : Directory) (name : String) : String :=
  ((Node.find? name directory.entries).bind Node.text?).getD ""

/-- **Where no link lies, the text of a file is that of the entry.** -/
theorem text_eq_ownText
    (h : directory.toPosition.node? root = some (.directory directory.entries)) {name : String}
    (hname : name ≠ "." ∧ name ≠ ".." ∧ name.utf8ByteSize ≤ World.maxName)
    (hpath : Path.fits (directory.pathOf name) = true)
    (hlink : ∀ target, Node.find? name directory.entries ≠ some (.link target)) :
    directory.text root name = directory.ownText name := by
  rw [text, ownText]
  cases hfind : Node.find? name directory.entries with
  | none =>
    rw [text?_of_find?_none h hname hpath hfind]
    rfl
  | some node =>
    rw [text?_of_entry h hname hpath hfind fun target hnode => hlink target (hnode ▸ hfind)]
    rfl

/-- The file about the plugin makes a directory that of a rule. -/
theorem isRule_of_find? (h : directory.toPosition.node? root = some (.directory directory.entries))
    (hpath : Path.fits (directory.pathOf pluginFile) = true) {bytes : List UInt8}
    (hfind : Node.find? pluginFile directory.entries = some (.file bytes)) :
    directory.isRule root = true := by
  have hname : pluginFile ≠ "." ∧ pluginFile ≠ ".." ∧ pluginFile.utf8ByteSize ≤ World.maxName := by
    decide
  rw [isRule_eq, text?_of_find? h hname hpath hfind, Option.isSome_some]

end Directory

/-! ## Documents and metadata -/

/-- A YAML document that is refused is refused as a document. -/
theorem exists_parse_of_readYaml {α : Type} {default : α}
    {reader : Yaml.Focus → Document.Reading α} {fileName text : String} {error : Error}
    (h : readYaml default reader fileName text = .error error) :
    ∃ message cause, error = .parse message cause := by
  rw [readYaml] at h
  split at h
  · cases h
  · split at h
    · cases h
    · exact ⟨_, _, (Except.error.inj h).symm⟩

/-- **The number of an impact is the one that its label stands for**, or that of the unknown. -/
theorem Metadata.impact_of_ofYaml {text : String} {metadata : Metadata}
    (h : Metadata.ofYaml text codes = .ok metadata) :
    metadata.impact.code = (codes.impact.get? metadata.impact.name).getD 0 := by
  obtain ⟨written, -, h⟩ := bind_eq_ok.1 h
  obtain ⟨condition, -, h⟩ := bind_eq_ok.1 h
  obtain rfl := Except.ok.inj h
  rfl

/-! ## Texts -/

namespace Texts

/-- A reason is given in a directory exactly when there is one. -/
theorem hasReason_ofDirectory : (ofDirectory root directory).hasReason = true
    ↔ (ofDirectory root directory).reason ≠ "" := by
  rw [Ne, ← String.isEmpty_iff, Bool.not_eq_true]
  exact iff_of_eq (Bool.not_eq_true' _)

/-- A reason that was not given is taken over. -/
theorem reason_inherit {own : Texts} (rule : Texts) (h : own.reason = "") :
    (own.inherit rule).reason = rule.reason := by
  rw [inherit, orElse, h]
  rfl

/-- **A directory without links in it has the texts of its own files.** -/
theorem ofDirectory_eq (h : directory.toPosition.node? root = some (.directory directory.entries))
    (hpaths : ∀ name ∈ Directory.textFiles, Path.fits (directory.pathOf name) = true)
    (hlinks : ∀ entry ∈ directory.entries, ∀ target, entry.2 ≠ .link target) :
    ofDirectory root directory =
      { generic := directory.ownText genericFile
        summary := directory.ownText summaryFile
        reason := directory.ownText reasonFile
        hasReason := !(directory.ownText reasonFile).isEmpty
        resolution := directory.ownText resolutionFile
        moreInfo := directory.ownText moreInfoFile } := by
  have hnames : ∀ name ∈ Directory.textFiles,
      name ≠ "." ∧ name ≠ ".." ∧ name.utf8ByteSize ≤ World.maxName := by
    decide
  have htext (name : String) (hmem : name ∈ Directory.textFiles) :
      directory.text root name = directory.ownText name :=
    directory.text_eq_ownText h (hnames name hmem) (hpaths name hmem) fun target hfind =>
      hlinks _ (Node.mem_of_find? hfind) target rfl
  simp only [ofDirectory, htext genericFile (by decide), htext summaryFile (by decide),
    htext reasonFile (by decide), htext resolutionFile (by decide), htext moreInfoFile (by decide)]

/-- **Nothing is missing when there is a short description and a reason.** -/
theorem missing_eq_nil_iff {texts : Texts} :
    texts.missing = [] ↔ texts.generic ≠ "" ∧ texts.reason ≠ "" := by
  rw [missing, List.append_eq_nil_iff]
  simp only [ite_eq_right_iff, List.cons_ne_nil, imp_false, Bool.not_eq_true, ne_eq,
    ← String.isEmpty_iff]

end Texts

/-! ## Error keys -/

/-- **An error key is loaded when its metadata can be read**; it has the texts of its directory. -/
theorem ErrorKey.load_eq_ok_iff {key : ErrorKey} :
    ErrorKey.load root codes directory = .ok key
      ↔ ∃ text metadata, directory.text? root metadataFile = some text
        ∧ Metadata.ofYaml text codes = .ok metadata
        ∧ { texts := Texts.ofDirectory root directory, metadata } = key := by
  rw [ErrorKey.load]
  cases directory.text? root metadataFile with
  | none => simp
  | some text => simp [bind_eq_ok, pure, Except.pure]

/-- **Error keys are loaded when each of them is**, under the names of their directories. -/
theorem ErrorKey.loadAll_eq_ok_iff {directories : List Directory}
    {keys : List (String × ErrorKey)} : ErrorKey.loadAll root codes directories = .ok keys
      ↔ List.Forall₂ (fun directory entry => directory.name = entry.1
        ∧ ErrorKey.load root codes directory = .ok entry.2) directories keys := by
  induction directories generalizing keys with
  | nil => simp [ErrorKey.loadAll, pure, Except.pure, eq_comm]
  | cons directory rest ih =>
    rw [ErrorKey.loadAll, bind_eq_ok]
    constructor
    · rintro ⟨key, hkey, h⟩
      obtain ⟨others, hothers, h⟩ := bind_eq_ok.1 h
      obtain rfl := Except.ok.inj h
      exact .cons ⟨rfl, hkey⟩ (ih.1 hothers)
    · rintro (_ | @⟨_, ⟨name, key⟩, _, others, ⟨hname, hkey⟩, hothers⟩)
      obtain rfl : directory.name = name := hname
      exact ⟨key, hkey, bind_eq_ok.2 ⟨others, ih.2 hothers, rfl⟩⟩

/-- An error key that was loaded comes from one of the directories. -/
theorem ErrorKey.exists_of_mem_loadAll {directories : List Directory}
    {keys : List (String × ErrorKey)} (h : ErrorKey.loadAll root codes directories = .ok keys)
    {entry : String × ErrorKey} (hentry : entry ∈ keys) : ∃ directory ∈ directories,
      directory.name = entry.1 ∧ ErrorKey.load root codes directory = .ok entry.2 :=
  exists_left_of_forall₂ (ErrorKey.loadAll_eq_ok_iff.1 h) hentry

namespace Rule

/-! ## Rules -/

theorem incomplete_eq_nil_iff {keys : Table ErrorKey} :
    incomplete keys = [] ↔ ∀ entry ∈ keys.entries, entry.2.texts.missing = [] := by
  rw [incomplete, List.filterMap_eq_nil_iff]
  refine forall₂_congr fun entry _ => ?_
  simp

/-- **A rule is loaded when its plugin can be read, each of its error keys is loaded, and none of
them lacks a text** that it must have. -/
theorem load_eq_ok_iff {rule : Rule} : load root codes directory = .ok rule
    ↔ ∃ text plugin keys, directory.text? root pluginFile = some text
      ∧ Plugin.ofYaml text = .ok plugin
      ∧ ErrorKey.loadAll root codes directory.subdirectories = .ok keys
      ∧ incomplete (inheritAll (Texts.ofDirectory root directory) keys) = []
      ∧ { texts := Texts.ofDirectory root directory
          plugin
          errorKeys := inheritAll (Texts.ofDirectory root directory) keys } = rule := by
  rw [load]
  cases directory.text? root pluginFile with
  | none => simp
  | some text =>
    constructor
    · intro h
      obtain ⟨plugin, hplugin, h⟩ := bind_eq_ok.1 h
      obtain ⟨keys, hkeys, h⟩ := bind_eq_ok.1 h
      refine ⟨text, plugin, keys, rfl, hplugin, hkeys, ?_⟩
      dsimp only at h
      split at h
      · rename_i hcomplete
        exact ⟨hcomplete, Except.ok.inj h⟩
      · cases h
    · rintro ⟨_, plugin, keys, htext, hplugin, hkeys, hcomplete, rfl⟩
      obtain rfl := Option.some.inj htext
      refine bind_eq_ok.2 ⟨plugin, hplugin, bind_eq_ok.2 ⟨keys, hkeys, ?_⟩⟩
      dsimp only
      rw [hcomplete]
      rfl

/-- A rule that is loaded has the texts of its directory. -/
theorem texts_of_load {rule : Rule} (h : load root codes directory = .ok rule) :
    rule.texts = Texts.ofDirectory root directory := by
  obtain ⟨_, _, _, -, -, -, -, rfl⟩ := load_eq_ok_iff.1 h
  rfl

/-- **An error key of a loaded rule comes from a directory in that of the rule.** Nothing of it is
changed but what it takes over, and it lacks nothing. -/
theorem exists_own {rule : Rule} (h : load root codes directory = .ok rule) {name : String}
    {key : ErrorKey} (hkey : rule.errorKeys.get? name = some key) :
    ∃ held ∈ directory.subdirectories, held.name = name ∧ ∃ own : ErrorKey,
      ErrorKey.load root codes held = .ok own
        ∧ key = { own with texts := own.texts.inherit rule.texts }
        ∧ key.texts.missing = [] := by
  obtain ⟨text, plugin, keys, -, -, hkeys, hcomplete, rfl⟩ := load_eq_ok_iff.1 h
  have hmissing := incomplete_eq_nil_iff.1 hcomplete _ ((Table.get?_eq_some_iff ..).1 hkey)
  rw [inheritAll, Table.get?_map, Option.map_eq_some_iff] at hkey
  obtain ⟨own, hown, rfl⟩ := hkey
  obtain ⟨held, hheld, hname, hload⟩ :=
    ErrorKey.exists_of_mem_loadAll hkeys (Table.mem_of_get?_ofList hown)
  exact ⟨held, hheld, hname, own, hload, rfl, hmissing⟩

/-- **What holds of every rule that has been loaded**, given what labels stand for. -/
structure Sound (codes : LabelCodes) (rule : Rule) : Prop where
  /-- The rule says that it has a reason exactly when it has one. -/
  hasReason : rule.texts.hasReason = true ↔ rule.texts.reason ≠ ""
  /-- Every error key has a short description. -/
  generic : ∀ name key, rule.errorKeys.get? name = some key → key.texts.generic ≠ ""
  /-- Every error key has a reason. -/
  reason : ∀ name key, rule.errorKeys.get? name = some key → key.texts.reason ≠ ""
  /-- An error key that gives no reason itself has that of the rule, which then gives one. -/
  inherited : ∀ name key, rule.errorKeys.get? name = some key → key.texts.hasReason = false →
    key.texts.reason = rule.texts.reason ∧ rule.texts.hasReason = true
  /-- The number of an impact is the one that its label stands for. -/
  impact : ∀ name key, rule.errorKeys.get? name = some key →
    key.metadata.impact.code = (codes.impact.get? key.metadata.impact.name).getD 0

/-- **A rule that has been loaded is sound.** -/
theorem sound_of_load {rule : Rule} (h : load root codes directory = .ok rule) :
    rule.Sound codes := by
  have hrule : rule.texts.hasReason = true ↔ rule.texts.reason ≠ "" :=
    texts_of_load h ▸ Texts.hasReason_ofDirectory
  have hfilled (name : String) (key : ErrorKey) (hkey : rule.errorKeys.get? name = some key) :
      key.texts.generic ≠ "" ∧ key.texts.reason ≠ "" := by
    obtain ⟨held, -, -, own, -, -, hmissing⟩ := exists_own h hkey
    exact Texts.missing_eq_nil_iff.1 hmissing
  refine ⟨hrule, fun name key hkey => (hfilled name key hkey).1,
    fun name key hkey => (hfilled name key hkey).2, fun name key hkey hno => ?_,
    fun name key hkey => ?_⟩
  · obtain ⟨held, -, -, own, hown, rfl, -⟩ := exists_own h hkey
    obtain ⟨text, metadata, -, -, rfl⟩ := ErrorKey.load_eq_ok_iff.1 hown
    -- the flag was taken before anything was taken over
    have hempty : (Texts.ofDirectory root held).reason = "" := by
      by_contra hreason
      exact absurd (Texts.hasReason_ofDirectory.2 hreason) (Bool.eq_false_iff.1 hno)
    have hreason := Texts.reason_inherit rule.texts hempty
    refine ⟨hreason, hrule.2 ?_⟩
    rw [← hreason]
    exact (hfilled name _ hkey).2
  · obtain ⟨held, -, -, own, hown, rfl, -⟩ := exists_own h hkey
    obtain ⟨text, metadata, -, hmetadata, rfl⟩ := ErrorKey.load_eq_ok_iff.1 hown
    exact Metadata.impact_of_ofYaml hmetadata

end Rule

/-! ## Directories that read alike -/

/-- The files that are read for a rule. -/
def Directory.ruleFiles : List String := pluginFile :: textFiles

/-- The files that are read for an error key. -/
def Directory.keyFiles : List String := metadataFile :: textFiles

/-- **A directory reads like another one**, which may be in another tree: they have one name, and
the same texts in the files that are read. -/
structure Directory.ReadsLike (root other : Node) (files : List String)
    (directory counterpart : Directory) : Prop where
  /-- They have one name. -/
  name : directory.name = counterpart.name
  /-- What is read has the same text. -/
  text? : ∀ file ∈ files, directory.text? root file = counterpart.text? other file

section Congr

variable {other : Node} {counterpart : Directory}

theorem Texts.ofDirectory_congr (h : ∀ file ∈ Directory.textFiles,
    directory.text? root file = counterpart.text? other file) :
    ofDirectory root directory = ofDirectory other counterpart := by
  have htext (file : String) (hfile : file ∈ Directory.textFiles) :
      directory.text root file = counterpart.text other file := by
    rw [Directory.text, Directory.text, h file hfile]
  simp only [ofDirectory, htext genericFile (by decide), htext summaryFile (by decide),
    htext reasonFile (by decide), htext resolutionFile (by decide), htext moreInfoFile (by decide)]

theorem ErrorKey.load_congr (codes : LabelCodes)
    (h : directory.ReadsLike root other Directory.keyFiles counterpart) :
    load root codes directory = load other codes counterpart := by
  rw [load, load, h.text? metadataFile (List.mem_cons_self ..),
    Texts.ofDirectory_congr fun file hfile => h.text? file (List.mem_cons_of_mem _ hfile)]

/-- **The first faulty error key is the same one.** -/
theorem ErrorKey.loadAll_congr (codes : LabelCodes) {directories others : List Directory}
    (h : List.Forall₂ (Directory.ReadsLike root other Directory.keyFiles) directories others) :
    loadAll root codes directories = loadAll other codes others := by
  induction h with
  | nil => rfl
  | cons h _ ih => rw [loadAll, loadAll, load_congr codes h, h.name, ih]

/-- **A rule is loaded with the same result from directories that read alike**, when those of their
error keys do. -/
theorem Rule.load_congr (codes : LabelCodes)
    (h : directory.ReadsLike root other Directory.ruleFiles counterpart)
    (hkeys : List.Forall₂ (Directory.ReadsLike root other Directory.keyFiles)
      directory.subdirectories counterpart.subdirectories) :
    load root codes directory = load other codes counterpart := by
  rw [load, load, h.text? pluginFile (List.mem_cons_self ..),
    Texts.ofDirectory_congr fun file hfile => h.text? file (List.mem_cons_of_mem _ hfile),
    ErrorKey.loadAll_congr codes hkeys]

end Congr

end Rulebook
