import Rulebook.Proofs.Discovery
import Rulebook.Proofs.RuleLoading
import Mathlib.Data.List.Induction

/-!
# What a load keeps under a name

Rule directories anywhere in the content may have one name. Both tables of a snapshot then keep one
entry, and they choose differently: the status is that of the last directory with the name, the rule
that of the last one that was loaded. Last is meant in the order of `Snapshot.sequence`, in which
the directories are gone through.

A single record changes each table under one name (`Snapshot.status_record`,
`Snapshot.rules_record`). A load is a fold of records (`Snapshot.load_eq_ok_iff`), and
`Snapshot.status_foldl` and `Snapshot.rules_foldl` say what a fold of any length leaves under a
name.
-/

namespace Rulebook

open Files (Node World)

/-- The last entry of a list with a property. -/
def IsLast {α : Type} (p : α → Prop) (list : List α) (last : α) : Prop :=
  ∃ before after, list = before ++ last :: after ∧ p last ∧ ∀ later ∈ after, ¬ p later

theorem IsLast.holds {α : Type} {p : α → Prop} {list : List α} {last : α}
    (h : IsLast p list last) : p last := by
  obtain ⟨_, _, _, h, _⟩ := h
  exact h

/-- **The last entry is the one at the end of what is kept.** -/
theorem getLast?_filterMap_of_isLast {α β : Type} {p : α → Prop} {f : α → Option β} {list : List α}
    {last : α} {value : β} (h : IsLast p list last) (hf : ∀ entry, ¬ p entry → f entry = none)
    (hlast : f last = some value) : (list.filterMap f).getLast? = some value := by
  obtain ⟨before, after, rfl, -, hafter⟩ := h
  have hnone : after.filterMap f = [] :=
    List.filterMap_eq_nil_iff.2 fun later hlater => hf later (hafter later hlater)
  rw [List.filterMap_append, List.filterMap_cons, hlast, hnone, List.getLast?_append]
  rfl

/-- Something is kept at the end as soon as anything is kept. -/
theorem exists_getLast?_filterMap {α β : Type} {f : α → Option β} {list : List α} :
    (∃ value, (list.filterMap f).getLast? = some value)
      ↔ ∃ entry ∈ list, ∃ value, f entry = some value := by
  constructor
  · rintro ⟨value, h⟩
    obtain ⟨entry, hentry, hvalue⟩ := List.mem_filterMap.1 (List.mem_of_getLast? h)
    exact ⟨entry, hentry, value, hvalue⟩
  · rintro ⟨entry, hentry, value, hvalue⟩
    have hne := List.ne_nil_of_mem (List.mem_filterMap.2 ⟨entry, hentry, hvalue⟩)
    exact ⟨_, List.getLast?_eq_some_getLast hne⟩

namespace Snapshot

/-! ## The sequence of the rule directories -/

/-- The rule directories of a category, in the order of the walk. -/
def found (world : World) (path : String) (category : Category) : List Directory :=
  match openDirectory world (Path.join path category.name) with
  | .ok directory => directory.rules world.root
  | .error _ => []

/-- **All rule directories with their categories**, in the order in which they are loaded. -/
def sequence (world : World) (path : String) : List (Category × Directory) :=
  Category.all.flatMap fun category => (found world path category).map fun directory =>
    (category, directory)

/-- Loads a rule of a category. -/
def loadEntry (root : Node) (codes : LabelCodes) (snapshot : Snapshot)
    (entry : Category × Directory) : Snapshot :=
  snapshot.loadRule root codes entry.1 entry.2

/-- The status of a rule directory, by what became of it. -/
def outcomeStatus (category : Category) : Except Error Rule → Status
  | .ok _ => .loaded category
  | .error error => .failed category error.message

/-- The words of a failure are shown as they are. -/
theorem outcomeStatus_error (category : Category) (error : Error) :
    outcomeStatus category (.error error) = ⟨category, false, error.message⟩ := by
  rw [outcomeStatus, Status.failed, if_neg]
  rw [String.isEmpty_iff]
  exact error.message_ne_empty

/-! ## A single record -/

section Record

variable (snapshot : Snapshot) (category : Category) (name : String) (outcome : Except Error Rule)

/-- The labels stay what they are. -/
@[simp] theorem codes_record : (snapshot.record category name outcome).rules.codes
    = snapshot.rules.codes := by
  cases outcome <;> rfl

/-- **Whatever became of it, a directory gets a status under its name.** -/
theorem status_record (other : String) :
    (snapshot.record category name outcome).status.get? other
      = if name = other then some (outcomeStatus category outcome)
        else snapshot.status.get? other := by
  cases outcome <;> exact Table.get?_insert ..

/-- **Only a rule that was loaded replaces another one.** -/
theorem rules_record (other : String) :
    (snapshot.record category name outcome).rules.rules.get? other
      = (if name = other then outcome.toOption else none).or
        (snapshot.rules.rules.get? other) := by
  cases outcome with
  | ok rule =>
    refine (Table.get?_insert ..).trans ?_
    split <;> rfl
  | error error =>
    -- a failure leaves the rules as they are, under its own name as well
    have : (if name = other then (none : Option Rule) else none) = none := ite_self _
    rw [Except.toOption, this]
    rfl

end Record

/-! ## Many records -/

section Fold

variable (root : Node) (codes : LabelCodes) (entries : List (Category × Directory))
  (snapshot : Snapshot)

theorem codes_foldl : (entries.foldl (loadEntry root codes) snapshot).rules.codes
    = snapshot.rules.codes := by
  induction entries generalizing snapshot with
  | nil => rfl
  | cons entry rest ih => exact (ih _).trans (codes_record ..)

/-- What an entry leaves among the statuses under a name. -/
def statusUnder (name : String) (entry : Category × Directory) : Option Status :=
  if entry.2.name = name then some (outcomeStatus entry.1 (Rule.load root codes entry.2)) else none

/-- What an entry leaves among the rules under a name. -/
def ruleUnder (name : String) (entry : Category × Directory) : Option Rule :=
  if entry.2.name = name then (Rule.load root codes entry.2).toOption else none

theorem statusUnder_eq_some {name : String} {entry : Category × Directory} {status : Status} :
    statusUnder root codes name entry = some status ↔ entry.2.name = name
      ∧ outcomeStatus entry.1 (Rule.load root codes entry.2) = status := by
  rw [statusUnder, Option.ite_none_right_eq_some, Option.some.injEq]

theorem ruleUnder_eq_some {name : String} {entry : Category × Directory} {rule : Rule} :
    ruleUnder root codes name entry = some rule ↔ entry.2.name = name
      ∧ Rule.load root codes entry.2 = .ok rule := by
  rw [ruleUnder, Option.ite_none_right_eq_some]
  refine and_congr_right fun _ => ?_
  cases Rule.load root codes entry.2 <;> simp [Except.toOption]

/-- **The last status under a name stays.** -/
theorem status_foldl (name : String) :
    (entries.foldl (loadEntry root codes) snapshot).status.get? name
      = (entries.filterMap (statusUnder root codes name)).getLast?.or
        (snapshot.status.get? name) := by
  -- from the right end, where the last record is the one that decides
  induction entries using List.reverseRecOn with
  | nil => rfl
  | append_singleton entries entry ih =>
    rw [List.foldl_append, List.foldl_cons, List.foldl_nil, loadEntry, loadRule, status_record, ih,
      List.filterMap_append, List.getLast?_append, List.filterMap_cons, statusUnder]
    split <;> simp

/-- **The last rule that was loaded under a name stays.** -/
theorem rules_foldl (name : String) :
    (entries.foldl (loadEntry root codes) snapshot).rules.rules.get? name
      = (entries.filterMap (ruleUnder root codes name)).getLast?.or
        (snapshot.rules.rules.get? name) := by
  induction entries using List.reverseRecOn with
  | nil => rfl
  | append_singleton entries entry ih =>
    rw [List.foldl_append, List.foldl_cons, List.foldl_nil, loadEntry, loadRule, rules_record, ih,
      List.filterMap_append, List.getLast?_append, List.filterMap_cons, ← ruleUnder]
    cases ruleUnder root codes name entry <;> simp

/-- **The names of the entries have a status**, and no others if none had before. -/
theorem contains_status_foldl (labels : LabelCodes) (name : String) :
    (entries.foldl (loadEntry root codes) { rules := { codes := labels } }).status.contains name
      = true ↔ ∃ entry ∈ entries, entry.2.name = name := by
  have hnone : ({ rules := { codes := labels } } : Snapshot).status.get? name = none := rfl
  rw [Table.contains_iff]
  simp only [status_foldl, hnone, Option.or_none, exists_getLast?_filterMap, statusUnder_eq_some,
    exists_and_left, exists_eq', and_true]

end Fold

/-! ## A whole load -/

theorem found_eq {world : World} {path : String} {category : Category} {directory : Directory}
    (h : openDirectory world (Path.join path category.name) = .ok directory) :
    found world path category = directory.rules world.root := by
  rw [found, h]

theorem sequence_eq (world : World) (path : String) :
    sequence world path = (found world path .external).map (Category.external, ·)
      ++ (found world path .internal).map (Category.internal, ·) := by
  rw [sequence, Category.all, List.flatMap_cons, List.flatMap_singleton]

/-- **A category can be walked through**: its directory is opened, and nothing below that keeps a
walk from going on. -/
def Walkable (world : World) (path : String) (category : Category) (directory : Directory) : Prop :=
  openDirectory world (Path.join path category.name) = .ok directory
    ∧ directory.barred world.root = []

/-- **A category is loaded exactly when it can be walked through.** -/
theorem loadCategory_eq_ok_iff {world : World} {path : String} {category : Category}
    {codes : LabelCodes} {snapshot after : Snapshot} :
    loadCategory world path codes category snapshot = .ok after
      ↔ (∃ directory, Walkable world path category directory)
        ∧ (found world path category).foldl (loadRule world.root codes category) snapshot
          = after := by
  constructor
  · intro h
    obtain ⟨directory, hopen, -⟩ := bind_eq_ok.1 h
    rw [loadCategory_eq hopen, Directory.unlessBarred_eq_ok_iff] at h
    rw [found_eq hopen]
    exact ⟨⟨directory, hopen, h.1⟩, h.2⟩
  · rintro ⟨⟨directory, hopen, hnone⟩, rfl⟩
    rw [loadCategory_eq hopen, Directory.unlessBarred_of_nil hnone, found_eq hopen]

/-- **A load goes through the rule directories in their sequence**, with the labels that it has read
before. -/
theorem load_eq_ok_iff {world : World} {path : String} {snapshot : Snapshot} :
    load world path = .ok snapshot ↔ ∃ codes,
      loadCodes world (Path.join path labelCodesFile) = .ok codes
        ∧ (∀ category : Category, ∃ directory, Walkable world path category directory)
        ∧ (sequence world path).foldl (loadEntry world.root codes) { rules := { codes } }
          = snapshot := by
  constructor
  · intro h
    rw [load] at h
    obtain ⟨codes, hcodes, h⟩ := bind_eq_ok.1 h
    obtain ⟨first, hfirst, h⟩ := bind_eq_ok.1 h
    obtain ⟨hexternal, rfl⟩ := loadCategory_eq_ok_iff.1 hfirst
    obtain ⟨hinternal, rfl⟩ := loadCategory_eq_ok_iff.1 h
    refine ⟨codes, hcodes, fun category => ?_, ?_⟩
    · cases category with
      | external => exact hexternal
      | internal => exact hinternal
    · -- the internal rules go on from what the external ones have left
      rw [sequence_eq, List.foldl_append, List.foldl_map, List.foldl_map]
      rfl
  · rintro ⟨codes, hcodes, hwalk, rfl⟩
    rw [sequence_eq, List.foldl_append, List.foldl_map, List.foldl_map, load, hcodes]
    refine bind_eq_ok.2 ⟨codes, rfl, ?_⟩
    refine bind_eq_ok.2 ⟨_, loadCategory_eq_ok_iff.2 ⟨hwalk .external, rfl⟩, ?_⟩
    exact loadCategory_eq_ok_iff.2 ⟨hwalk .internal, rfl⟩

/-! ## A content in the root -/

/-- The text of the labels in the root is that of their file. -/
theorem readText_here {world : World} {entries : List (String × Node)}
    (hroot : world.root = .directory entries) (hstart : world.start = [])
    {bytes : List UInt8} {text : String}
    (hcodes : Node.find? labelCodesFile entries = some (.file bytes))
    (htext : Text.decode? bytes = some text) :
    world.readText (Path.join "." labelCodesFile) = .ok text := by
  obtain ⟨hreach, hnode⟩ := reach_here hroot hstart (.inl rfl) hcodes (by simp)
  rw [World.readText, World.readBytes, World.node, hreach]
  simp only [bind, Except.bind, hnode, htext, pure, Except.pure]

theorem decode?_nil : Text.decode? [] = some "" := by
  rw [Text.decode?, Text.decodeList?, Text.units]
  rfl

/-- A category in the root can be walked through when all paths are short enough. -/
theorem walkable_here {world : World} {entries held : List (String × Node)}
    (hroot : world.root = .directory entries) (hstart : world.start = [])
    (hroom : Node.extentAll entries < Path.maxSize) (category : Category)
    (hfind : Node.find? category.name entries = some (.directory held)) :
    Walkable world "." category
      ⟨⟨[category.name], World.maxLinks⟩, Path.join "." category.name, held⟩ := by
  refine ⟨openDirectory_here hroot hstart category hfind, Directory.barred_of_extent ?_⟩
  have hextent := Node.le_extentAll (Node.mem_of_find? hfind)
  have hpath : (Path.join "." category.name).utf8ByteSize = 2 + category.name.utf8ByteSize := by
    cases category <;> decide
  show (Path.join "." category.name).utf8ByteSize + (Node.directory held).extent ≤ _
  omega

section Here

variable {world : World} {entries external internal : List (String × Node)} {bytes : List UInt8}
  {text : String} {codes : LabelCodes} (hroot : world.root = .directory entries)
  (hstart : world.start = []) (hcodes : Node.find? labelCodesFile entries = some (.file bytes))
  (htext : Text.decode? bytes = some text) (hlabels : LabelCodes.ofYaml text = .ok codes)
include hroot hstart hcodes htext hlabels

/-- The labels in the root are those of their file. -/
theorem loadCodes_here : loadCodes world (Path.join "." labelCodesFile) = .ok codes := by
  rw [loadCodes, readText_here hroot hstart hcodes htext]
  exact hlabels

/-- **A content in the root can be loaded** when it has a file about the labels and both categories,
and all paths are short enough. -/
theorem load_here (hroom : Node.extentAll entries < Path.maxSize)
    (hexternal : Node.find? Category.external.name entries = some (.directory external))
    (hinternal : Node.find? Category.internal.name entries = some (.directory internal)) :
    load world "." = .ok
      ((sequence world ".").foldl (loadEntry world.root codes) { rules := { codes } }) := by
  refine load_eq_ok_iff.2
    ⟨codes, loadCodes_here hroot hstart hcodes htext hlabels, fun category => ?_, rfl⟩
  cases category with
  | external => exact ⟨_, walkable_here hroot hstart hroom .external hexternal⟩
  | internal => exact ⟨_, walkable_here hroot hstart hroom .internal hinternal⟩

end Here

/-- The directory of the internal rule of the nested content. -/
def nestedRule : Directory where
  place := ["outer", "internal"]
  links := World.maxLinks
  path := nestedInternal.pathOf "outer"
  entries := [("plugin.yaml", .file [])]

theorem nestedRule_node : nestedRule.toPosition.node? nestedContent.root
    = some (.directory nestedRule.entries) := by
  rw [nestedContent_root]
  rfl

theorem text?_nestedRule : nestedRule.text? nestedContent.root pluginFile = some "" := by
  have hname : pluginFile ≠ "." ∧ pluginFile ≠ ".." ∧ pluginFile.utf8ByteSize ≤ World.maxName := by
    decide
  have hempty : Text.decodeLenient [] = "" := by decide +kernel
  rw [Directory.text?_of_find? nestedRule_node hname (by decide) rfl, hempty]

/-- It is the last of all rule directories. -/
theorem sequence_nestedContent : ∃ before,
    sequence nestedContent "." = before ++ [(.internal, nestedRule)] := by
  have hrule : nestedRule.isRule nestedContent.root = true :=
    Directory.isRule_of_find? nestedRule_node (by decide) rfl
  have hheld : nestedInternal.subdirectories = [nestedRule] :=
    Directory.subdirectories_of_single rfl
  refine ⟨_, (sequence_eq ..).trans (congrArg _ ?_)⟩
  rw [found_eq openDirectory_nestedContent.2, Directory.rules_of_single hheld hrule]
  rfl

theorem load_nestedRule : Rule.load nestedContent.root {} nestedRule = .ok {} := by
  have htexts : Texts.ofDirectory nestedContent.root nestedRule = {} := by
    rw [Texts.ofDirectory_eq nestedRule_node (by decide) (by simp [nestedRule])]
    rfl
  have hkeys : nestedRule.subdirectories = [] := Directory.subdirectories_of_none rfl
  rw [Rule.load, text?_nestedRule, htexts, hkeys]
  rfl

/-! ## What is kept -/

/-- **The last directory with a name decides.** After a load a name has a status exactly when some
rule directory has the name, and the status is that of the last of them: with its category, as
loaded when it was loaded and otherwise with the words of its failure. A name has a rule exactly
when some directory with the name was loaded, and the rule is that of the last of these. -/
theorem load_keeps_last {world : World} {path : String} {snapshot : Snapshot}
    (h : load world path = .ok snapshot) (name : String) :
    loadCodes world (Path.join path labelCodesFile) = .ok snapshot.rules.codes
      ∧ (snapshot.status.contains name = true
        ↔ ∃ entry ∈ sequence world path, entry.2.name = name)
      ∧ (∀ category directory,
        IsLast (·.2.name = name) (sequence world path) (category, directory) →
          snapshot.status.get? name
            = some (match Rule.load world.root snapshot.rules.codes directory with
              | .ok _ => ⟨category, true, ""⟩
              | .error error => ⟨category, false, error.message⟩))
      ∧ (snapshot.rules.rules.contains name = true
        ↔ ∃ entry ∈ sequence world path, entry.2.name = name
          ∧ ∃ rule, Rule.load world.root snapshot.rules.codes entry.2 = .ok rule)
      ∧ (∀ category directory rule,
        IsLast (fun entry => entry.2.name = name
            ∧ ∃ rule, Rule.load world.root snapshot.rules.codes entry.2 = .ok rule)
          (sequence world path) (category, directory) →
        Rule.load world.root snapshot.rules.codes directory = .ok rule →
          snapshot.rules.rules.get? name = some rule) := by
  obtain ⟨codes, hcodes, -, rfl⟩ := load_eq_ok_iff.1 h
  have hstatus (name) : ({ rules := { codes } } : Snapshot).status.get? name = none := rfl
  have hrules (name) : ({ rules := { codes } } : Snapshot).rules.rules.get? name = none := rfl
  rw [codes_foldl, Table.contains_iff, Table.contains_iff]
  simp only [status_foldl, rules_foldl, hstatus, hrules, Option.or_none, exists_getLast?_filterMap]
  refine ⟨hcodes, ?_, fun category directory hlast => ?_, ?_,
    fun category directory rule hlast hrule => ?_⟩
  · refine exists_congr fun entry => and_congr_right fun _ => ?_
    simp only [statusUnder_eq_some, exists_and_left, exists_eq', and_true]
  · refine getLast?_filterMap_of_isLast hlast (fun entry hname => if_neg hname)
      ((statusUnder_eq_some ..).2 ⟨hlast.holds, ?_⟩)
    cases Rule.load world.root codes directory with
    | ok rule => rfl
    | error error => exact outcomeStatus_error category error
  · refine exists_congr fun entry => and_congr_right fun _ => ?_
    simp only [ruleUnder_eq_some, exists_and_left]
  · refine getLast?_filterMap_of_isLast hlast (fun entry hentry => ?_)
      ((ruleUnder_eq_some ..).2 ⟨hlast.holds.1, hrule⟩)
    refine Option.eq_none_iff_forall_ne_some.2 fun other hother => hentry ?_
    obtain ⟨hname, hload⟩ := (ruleUnder_eq_some ..).1 hother
    exact ⟨hname, other, hload⟩

/-- The name that occurs in both categories has the status and the rule of the internal one. -/
theorem load_keeps_last_nestedContent : ∃ snapshot, load nestedContent "." = .ok snapshot
    ∧ snapshot.status.get? "outer" = some ⟨.internal, true, ""⟩
    ∧ snapshot.rules.rules.get? "outer" = some {} := by
  have h := load_here nestedContent_root rfl rfl decode?_nil rfl (by decide +kernel) rfl rfl
  obtain ⟨-, -, hstatus, -, hrules⟩ := load_keeps_last h "outer"
  obtain ⟨before, hsequence⟩ := sequence_nestedContent
  rw [codes_foldl] at hstatus hrules
  refine ⟨_, h, ?_, ?_⟩
  · have := hstatus .internal nestedRule ⟨before, [], hsequence, rfl, by simp⟩
    rwa [load_nestedRule] at this
  · exact hrules .internal nestedRule {}
      ⟨before, [], hsequence, ⟨rfl, {}, load_nestedRule⟩, by simp⟩ load_nestedRule

end Snapshot

end Rulebook
