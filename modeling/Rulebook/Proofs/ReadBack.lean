import Rulebook.Document.Plain
import Rulebook.Rule.Basic
import Mathlib.Data.List.Forall2

/-!
# What is laid out as plain data is read back

Each type of the catalogue says twice how it is laid out: how it is written as plain data, and how
it is read from a document. The two fit together (`Rules.reads` and the theorems before it): from a
document that carries the data of a value, that value is read.

This does not depend on the format. All that is asked of a kind of document is that its cursors
answer as the data they stand at (`Faithful`); which data a cursor stands at is for the format to
say. Plain data themselves are the first such kind (`Data.faithful`).
-/

namespace Rulebook.Document

open Rulebook.Decimal (fitsSigned)

variable {σ : Type}

/-- An entry of a container stands at a key and a value. -/
def AtEntry (stands : σ → Data → Prop) (cursor : σ × σ) (entry : String × Data) : Prop :=
  stands cursor.1 (.text entry.1) ∧ stands cursor.2 entry.2

/-- **A kind of document that is faithful to the plain data it carries**: a cursor that stands at
some data answers every question as the data do, and follows no reference to do so. -/
structure Faithful [Source σ] (stands : σ → Data → Prop) : Prop where
  /-- A text is answered. -/
  text (expected : String) {cursor : σ} {text : String} (h : stands cursor (.text text)) :
    Source.text expected cursor = pure text
  /-- A whole number of 32 bits is answered. -/
  int32 {cursor : σ} {n : Int32} (h : stands cursor (.integer n.toInt)) :
    Source.int32 cursor = pure n
  /-- A truth value is answered. -/
  flag {cursor : σ} {value : Bool} (h : stands cursor (.flag value)) :
    Source.flag cursor = pure value
  /-- The items of a list are all there. -/
  items {cursor : σ} {items : List Data} (h : stands cursor (.list items)) :
    ∃ parts, Source.items cursor = pure ⟨parts, none⟩ ∧ List.Forall₂ stands parts items
  /-- The entries of a table are all there. -/
  entries {cursor : σ} {entries : List (String × Data)} (h : stands cursor (.table entries)) :
    ∃ parts, Source.entries cursor = pure ⟨parts, none⟩
      ∧ List.Forall₂ (AtEntry stands) parts entries
  /-- The fields of a record are all there, under their names. -/
  fields (title : String) {cursor : σ} {entries : List (String × Data)}
    (h : stands cursor (.table entries)) :
    ∃ parts, Source.fields title cursor = pure (.named ⟨parts, none⟩)
      ∧ List.Forall₂ (AtEntry stands) parts entries
  /-- What is read without refusal is not changed by where it is read. -/
  within {α : Type} (cursor : σ) (value : α) : Source.within cursor (pure value) = pure value

/-- **Data are read as a value** wherever a cursor stands at them. -/
def Reads {α : Type} (stands : σ → Data → Prop) (read : σ → Reading α) (data : Data) (value : α) :
    Prop :=
  ∀ cursor, stands cursor data → read cursor = pure value

/-- **Entries fill the fields of a record** one after the other, and so lead from one record to
another. -/
inductive Fills {ρ : Type} (stands : σ → Data → Prop) :
    List (Field σ ρ) → List (String × Data) → ρ → ρ → Prop
  /-- No field is left. -/
  | nil (record : ρ) : Fills stands [] [] record record
  /-- The first field is filled, then the others. -/
  | cons {field : Field σ ρ} {fields : List (Field σ ρ)} {data : Data}
    {entries : List (String × Data)} {change : ρ → ρ} {record result : ρ}
    (hstore : Reads stands field.store data change)
    (h : Fills stands fields entries (change record) result) :
    Fills stands (field :: fields) ((field.name, data) :: entries) record result

/-! ## Parts of values -/

section Parts

variable {stands : σ → Data → Prop} {α ρ : Type}

@[simp] theorem Field.optional_name (name : String) (read : σ → Reading α) (set : α → ρ → ρ) :
    (Field.optional name read set).name = name := rfl

@[simp] theorem Field.mandatory_name (name : String) (read : σ → Reading α) (set : α → ρ → ρ) :
    (Field.mandatory name read set).name = name := rfl

theorem Reads.map {β : Type} {read : σ → Reading α} {data : Data} {value : α}
    (h : Reads stands read data value) (f : α → β) :
    Reads stands (fun cursor => f <$> read cursor) data (f value) := by
  intro cursor hcursor
  show f <$> read cursor = pure (f value)
  rw [h cursor hcursor, map_pure]

/-- Values are read back one after the other. -/
theorem mapM_eq_of_reads {read : σ → Reading α} {parts : List σ} {items : List Data}
    {values : List α} (hparts : List.Forall₂ stands parts items)
    (hitems : List.Forall₂ (Reads stands read) items values) :
    parts.mapM read = pure values := by
  induction hparts generalizing values with
  | nil =>
    cases hitems
    rfl
  | cons hpart _ ih =>
    obtain ⟨value, rest, hvalue, hrest, rfl⟩ := List.forall₂_cons_left_iff.1 hitems
    rw [List.mapM_cons, hvalue _ hpart, pure_bind, ih hrest, pure_bind]

namespace Fills

/-- A field that a record may lack is filled. -/
theorem optional {name : String} {read : σ → Reading α} {set : α → ρ → ρ}
    {fields : List (Field σ ρ)} {data : Data} {entries : List (String × Data)} {value : α}
    {record result : ρ} (hread : Reads stands read data value)
    (h : Fills stands fields entries (set value record) result) :
    Fills stands (Field.optional name read set :: fields) ((name, data) :: entries) record result :=
  .cons (hread.map set) h

/-- A field that a record needs is filled. -/
theorem mandatory {name : String} {read : σ → Reading α} {set : α → ρ → ρ}
    {fields : List (Field σ ρ)} {data : Data} {entries : List (String × Data)} {value : α}
    {record result : ρ} (hread : Reads stands read data value)
    (h : Fills stands fields entries (set value record) result) :
    Fills stands (Field.mandatory name read set :: fields) ((name, data) :: entries) record
      result :=
  .cons (hread.map set) h

/-- Fields are filled in two goes. -/
theorem append {fields others : List (Field σ ρ)} {entries more : List (String × Data)}
    {record middle result : ρ} (h : Fills stands fields entries record middle)
    (hothers : Fills stands others more middle result) :
    Fills stands (fields ++ others) (entries ++ more) record result := by
  induction h with
  | nil record => exact hothers
  | cons hstore _ ih => exact .cons hstore (ih hothers)

end Fills

end Parts

namespace Faithful

variable [Source σ] {stands : σ → Data → Prop} (hfaithful : Faithful stands) {α ρ : Type}
include hfaithful

/-! ## Lists and tables -/

/-- **A text is read back.** -/
theorem reads_text (text : String) : Reads stands readText (.text text) text :=
  fun _ hcursor => hfaithful.text "a string" hcursor

/-- **A list is read back** when its items are. -/
theorem reads_list {read : σ → Reading α} {items : List Data} {values : List α}
    (h : List.Forall₂ (Reads stands read) items values) :
    Reads stands (readList read) (.list items) values := by
  intro cursor hcursor
  obtain ⟨parts, hitems, hparts⟩ := hfaithful.items hcursor
  have hread : readParts read ⟨parts, none⟩ = pure values := by
    unfold readParts
    dsimp only
    rw [mapM_eq_of_reads hparts h, pure_bind]
    rfl
  rw [readList, hitems, pure_bind, hread, hfaithful.within]

/-- **Texts are read back.** -/
theorem reads_texts (texts : List String) : Reads stands readTexts (.ofTexts texts) texts := by
  refine reads_list hfaithful ?_
  rw [List.forall₂_map_left_iff]
  exact List.forall₂_same.2 fun text _ => reads_text hfaithful text

/-- **A number of 32 bits is read back.** -/
theorem reads_int32 (n : Int32) : Reads stands Source.int32 (.integer n.toInt) n :=
  fun _ hcursor => hfaithful.int32 hcursor

/-- **A truth value is read back.** -/
theorem reads_flag (value : Bool) : Reads stands Source.flag (.flag value) value :=
  fun _ hcursor => hfaithful.flag hcursor

/-- Entries whose values are read back are put into a table. -/
theorem readEntries_eq {read : σ → Reading α} {toData : α → Data} {parts : List (σ × σ)}
    {list : List (String × α)}
    (hparts : List.Forall₂ (AtEntry stands) parts
      (list.map fun entry => (entry.1, toData entry.2)))
    (hread : ∀ value, Reads stands read (toData value) value) (table : Table α) :
    readEntries read parts table
      = pure (list.foldl (fun table entry => table.insert entry.1 entry.2) table) := by
  induction list generalizing parts table with
  | nil =>
    cases hparts
    rfl
  | cons entry list ih =>
    obtain ⟨part, rest, ⟨hkey, hvalue⟩, hrest, rfl⟩ := List.forall₂_cons_right_iff.1 hparts
    rw [readEntries, reads_text hfaithful _ _ hkey, pure_bind, hread _ _ hvalue, pure_bind,
      ih hrest, List.foldl_cons]

/-- **A table is read back** when its values are. -/
theorem reads_table {read : σ → Reading α} {toData : α → Data}
    (hread : ∀ value, Reads stands read (toData value) value) (table : Table α) :
    Reads stands (readTable read) (.ofTable toData table) table := by
  intro cursor hcursor
  obtain ⟨parts, hentries, hparts⟩ := hfaithful.entries hcursor
  rw [readTable, hentries, pure_bind, readEntries_eq hfaithful hparts hread, pure_bind]
  show Source.within cursor (pure (Table.ofList table.entries)) = pure table
  rw [hfaithful.within, Table.ofList_entries]

/-! ## Records -/

/-- Entries that fill the fields still to come are read, and each field was then given once. The
fields in `done` come before those. -/
theorem readNamed_eq {fields : List (Field σ ρ)} {entries : List (String × Data)}
    {record result : ρ} (h : Fills stands fields entries record result) (done : List (Field σ ρ))
    (hnodup : ((done ++ fields).map (·.name)).Nodup) {parts : List (σ × σ)}
    (hparts : List.Forall₂ (AtEntry stands) parts entries) :
    readNamed (done ++ fields) parts (done.map (·.name)).reverse record
      = pure (((done ++ fields).map (·.name)).reverse, result) := by
  induction h generalizing done parts with
  | nil record =>
    cases hparts
    rw [List.append_nil]
    rfl
  | @cons field fields data entries change record result hstore h ih =>
    obtain ⟨part, rest, ⟨hkey, hvalue⟩, hrest, rfl⟩ := List.forall₂_cons_right_iff.1 hparts
    -- no name repeats, so the field that is looked for is this one and has not been given yet
    have hnew : field.name ∉ done.map (·.name) := by
      rw [List.map_append, List.map_cons] at hnodup
      exact fun hmem => (List.nodup_append.1 hnodup).2.2 _ hmem _ (List.mem_cons_self ..) rfl
    have hfind : (done ++ field :: fields).find? (·.name == field.name) = some field := by
      rw [List.find?_append, List.find?_eq_none.2, Option.none_or, List.find?_cons_of_pos]
      · exact beq_self_eq_true _
      · intro other hother heq
        exact hnew (beq_iff_eq.1 heq ▸ List.mem_map_of_mem hother)
    have hgiven : (done.map (·.name)).reverse.contains field.name = false := by
      simpa using hnew
    have hdone : done ++ field :: fields = (done ++ [field]) ++ fields := by simp
    have hih := ih (done ++ [field]) (by rwa [← hdone]) hrest
    rw [← hdone, List.map_append, List.reverse_append] at hih
    rw [readNamed, hfaithful.text _ hkey, pure_bind, hfind]
    dsimp only
    rw [hgiven, hstore _ hvalue]
    simpa using hih

/-- **A record is read back** when its entries fill its fields. -/
theorem reads_record {fields : List (Field σ ρ)} {entries : List (String × Data)}
    {start result : ρ} (title : String) (hnodup : (fields.map (·.name)).Nodup)
    (h : Fills stands fields entries start result) :
    Reads stands (readRecord title start fields) (.table entries) result := by
  intro cursor hcursor
  obtain ⟨parts, hfields, hparts⟩ := hfaithful.fields title hcursor
  have hnamed : readNamed fields parts [] start = pure ((fields.map (·.name)).reverse, result) :=
    readNamed_eq hfaithful h [] hnodup hparts
  have hmissing : (fields.find? fun field =>
      field.needed && !(fields.map (·.name)).reverse.contains field.name) = none := by
    rw [List.find?_eq_none]
    intro field hfield
    have hgiven : (fields.map (·.name)).reverse.contains field.name = true := by
      rw [List.contains_iff_mem, List.mem_reverse]
      exact List.mem_map_of_mem hfield
    rw [hgiven, Bool.not_true, Bool.and_false]
    exact Bool.false_ne_true
  rw [readRecord, hfields, pure_bind]
  dsimp only
  rw [hnamed, pure_bind]
  dsimp only
  rw [hmissing]
  exact hfaithful.within cursor result

end Faithful

/-! ## Plain data -/

/-- Every number of 32 bits is one. -/
theorem int32OfInteger_toInt (n : Int32) : int32OfInteger n.toInt = pure n := by
  have hfits : fitsSigned 32 n.toInt = true := by
    have hle := n.le_toInt
    have hlt := n.toInt_lt
    have hpow : (Decimal.twoPow (32 - 1) : Int) = 2 ^ 31 := rfl
    rw [fitsSigned, hpow, Bool.and_eq_true, decide_eq_true_iff, decide_eq_true_iff]
    exact ⟨hle, hlt⟩
  rw [int32OfInteger, if_pos hfits, Int32.ofInt_toInt]

/-- The cursors at the entries of a table stand at them. -/
theorem Data.atEntry_keyed (entries : List (String × Data)) :
    List.Forall₂ (AtEntry Eq) (Data.keyed entries).parts entries := by
  show List.Forall₂ (AtEntry Eq) (entries.map fun entry => (Data.text entry.1, entry.2)) entries
  rw [List.forall₂_map_left_iff, List.forall₂_same]
  exact fun entry _ => ⟨rfl, rfl⟩

/-- **Plain data are faithful to themselves.** -/
theorem Data.faithful : Faithful (Eq : Data → Data → Prop) where
  text expected cursor text h := by
    subst h
    rfl
  int32 h := by
    subst h
    exact int32OfInteger_toInt _
  flag h := by
    subst h
    rfl
  items {cursor items} h := by
    subst h
    exact ⟨items, rfl, List.forall₂_same.2 fun _ _ => rfl⟩
  entries {cursor entries} h := by
    subst h
    exact ⟨_, rfl, Data.atEntry_keyed entries⟩
  fields title cursor entries h := by
    subst h
    exact ⟨_, rfl, Data.atEntry_keyed entries⟩
  within _ _ := rfl

end Rulebook.Document

namespace Rulebook

open Rulebook.Document

/-! ## Rules

For each type, the entries of its plain data fill the fields by which it is read. -/

section Rules

variable {σ : Type} [Source σ] {stands : σ → Data → Prop} (hfaithful : Faithful stands)
include hfaithful

/-- A number that a label stands for is read back. -/
theorem LabelCodes.reads_codes (codes : Table Int32) :
    Reads stands (readTable Source.int32) (.ofTable codeData codes) codes :=
  hfaithful.reads_table hfaithful.reads_int32 codes

/-- **What labels stand for is read back.** -/
theorem LabelCodes.reads (codes : LabelCodes) :
    Reads stands LabelCodes.read codes.toData codes := by
  refine hfaithful.reads_record _ (by simp) ?_
  refine .optional (reads_codes hfaithful codes.impact) ?_
  exact .optional (reads_codes hfaithful codes.resolutionRisk) (.nil _)

/-- **A plugin is read back.** -/
theorem Plugin.reads (plugin : Plugin) : Reads stands Plugin.read plugin.toData plugin := by
  refine hfaithful.reads_record _ (by simp) ?_
  refine .optional (hfaithful.reads_text plugin.name) ?_
  refine .optional (hfaithful.reads_text plugin.nodeId) ?_
  refine .optional (hfaithful.reads_text plugin.productCode) ?_
  exact .optional (hfaithful.reads_text plugin.pythonModule) (.nil _)

/-- **An impact is read back.** -/
theorem Impact.reads (impact : Impact) : Reads stands Impact.read impact.toData impact := by
  refine hfaithful.reads_record _ (by simp) ?_
  refine .mandatory (hfaithful.reads_text impact.name) ?_
  exact .mandatory (hfaithful.reads_int32 impact.code) (.nil _)

/-- **Metadata are read back.** -/
theorem Metadata.reads (metadata : Metadata) :
    Reads stands Metadata.read metadata.toData metadata := by
  refine hfaithful.reads_record _ (by simp) ?_
  refine .mandatory (hfaithful.reads_text metadata.condition) ?_
  refine .mandatory (hfaithful.reads_text metadata.description) ?_
  refine .mandatory (Impact.reads hfaithful metadata.impact) ?_
  refine .mandatory (hfaithful.reads_int32 metadata.likelihood) ?_
  refine .mandatory (hfaithful.reads_text metadata.publishDate) ?_
  refine .mandatory (hfaithful.reads_int32 metadata.resolutionRisk) ?_
  refine .mandatory (hfaithful.reads_text metadata.status) ?_
  exact .mandatory (hfaithful.reads_texts metadata.tags) (.nil _)

/-- **Texts fill the fields that they are the first of.** Wherever `change` changes the texts of a
record, it puts there in the end the texts whose entries are read. -/
theorem Texts.fills {ρ : Type} {change : (Texts → Texts) → ρ → ρ} (place : Texts → ρ)
    (hchange : ∀ f texts, change f (place texts) = place (f texts)) (start texts : Texts) :
    Fills stands (Texts.fields change) texts.entries (place start) (place texts) := by
  refine .mandatory (hfaithful.reads_text texts.generic) ?_
  rw [hchange]
  refine .mandatory (hfaithful.reads_text texts.summary) ?_
  rw [hchange]
  refine .mandatory (hfaithful.reads_text texts.reason) ?_
  rw [hchange]
  refine .mandatory (hfaithful.reads_flag texts.hasReason) ?_
  rw [hchange]
  refine .mandatory (hfaithful.reads_text texts.resolution) ?_
  rw [hchange]
  refine .mandatory (hfaithful.reads_text texts.moreInfo) ?_
  rw [hchange]
  exact .nil _

/-- **An error key is read back.** -/
theorem ErrorKey.reads (key : ErrorKey) : Reads stands ErrorKey.read key.toData key := by
  refine hfaithful.reads_record _ (by simp [Texts.fields]) ?_
  refine .append (Texts.fills hfaithful (fun texts => ErrorKey.mk texts {}) (fun _ _ => rfl) {}
    key.texts) ?_
  exact .mandatory (Metadata.reads hfaithful key.metadata) (.nil _)

/-- **A rule is read back.** -/
theorem Rule.reads (rule : Rule) : Reads stands Rule.read rule.toData rule := by
  refine hfaithful.reads_record _ (by simp [Texts.fields]) ?_
  refine .append (Texts.fills hfaithful (fun texts => Rule.mk texts {} ∅) (fun _ _ => rfl) {}
    rule.texts) ?_
  refine .mandatory (Plugin.reads hfaithful rule.plugin) ?_
  exact .mandatory (hfaithful.reads_table (ErrorKey.reads hfaithful) rule.errorKeys) (.nil _)

/-- **Rules are read back** from every document that carries them. -/
theorem Rules.reads (rules : Rules) : Reads stands Rules.read rules.toData rules := by
  refine hfaithful.reads_record _ (by simp) ?_
  refine .mandatory (LabelCodes.reads hfaithful rules.codes) ?_
  exact .mandatory (hfaithful.reads_table (Rule.reads hfaithful) rules.rules) (.nil _)

end Rules

end Rulebook
