import Rulebook.Proofs.GivenFields
import Rulebook.Proofs.SettingsLayers
import Mathlib.Tactic.SplitIfs

/-!
# Files of settings set nothing twice

What is read from a file of settings is a table with ascending keys, and so is every table in it
(`ascending_ofText`). In TOML this is an invariant of the document while it is read: a part is put
where its key belongs, whatever statement is carried out, and what the parts become in the end has
the same keys. In YAML entries are inserted into a table, which keeps its keys ascending by itself.
-/

namespace Rulebook.Toml

open Rulebook.Settings (Value.ofToml Value.entriesOfToml)

/-- **A value that ascends** as a value of settings. -/
def Value.Ascending (value : Value) : Prop := (Settings.Value.ofToml value).Ascending

namespace Item

/-- **Entries that ascend**, and so do the values that they are going to be. -/
def Ascending (entries : Entries) : Prop :=
  entries.Pairwise (fun a b => a.1 < b.1) ∧ ∀ entry ∈ entries, entry.2.toValue.Ascending

theorem entriesOfToml_entriesToValues (entries : Entries) :
    Value.entriesOfToml (entriesToValues entries)
      = entries.map fun entry => (entry.1, Value.ofToml entry.2.toValue) := by
  induction entries with
  | nil => rfl
  | cons entry rest ih => rw [entriesToValues, Value.entriesOfToml, ih, List.map_cons]

/-- The table of entries ascends when they do. -/
theorem ascending_iff {entries : Entries} :
    Ascending entries ↔ (Settings.Value.table
      (Value.entriesOfToml (entriesToValues entries))).Ascending := by
  rw [entriesOfToml_entriesToValues]
  constructor
  · rintro ⟨hkeys, hvalues⟩
    exact .table (List.pairwise_map.2 hkeys) (List.forall_mem_map.2 hvalues)
  · intro h
    cases h with
    | table hkeys hvalues =>
      rw [List.pairwise_map] at hkeys
      exact ⟨hkeys, fun entry hentry => hvalues _ (List.mem_map_of_mem hentry)⟩
    | other h => exact absurd rfl (h _)

theorem ascending_nil : Ascending [] := ⟨.nil, fun _ h => nomatch h⟩

theorem ascending_put {key : String} {item : Item} {entries : Entries} (h : Ascending entries)
    (hitem : item.toValue.Ascending) : Ascending (put key item entries) := by
  refine ⟨Table.place_ascending key item h.1, fun entry hentry => ?_⟩
  rcases Table.mem_place hentry with rfl | hentry
  · exact hitem
  · exact h.2 entry hentry

/-- A table that may still grow ascends when its entries do. -/
theorem ascending_table {birth : Birth} {entries : Entries} :
    (Item.table birth entries).toValue.Ascending ↔ Ascending entries := by
  rw [ascending_iff, toValue]
  rfl

theorem ascending_tables (all : List Entries) : (Item.tables all).toValue.Ascending :=
  .other fun _ h => by
    rw [toValue] at h
    cases h

/-- **A change keeps entries ascending** if it does so where it is made. -/
theorem ascending_change {birth : Birth} {f : Birth → Entries → Except Flaw Entries}
    (hf : ∀ here entries result, Ascending entries → f here entries = .ok result → Ascending result)
    {keys : List String} {here : Birth} {entries result : Entries} (h : Ascending entries)
    (hchange : change birth f keys here entries = .ok result) : Ascending result := by
  induction keys generalizing here entries result with
  | nil => exact hf here entries result h hchange
  | cons key keys ih =>
    rw [change] at hchange
    split at hchange
    · obtain ⟨inner, hinner, hresult⟩ := bind_eq_ok.1 hchange
      cases hresult
      exact ascending_put h (ascending_table.2 (ih ascending_nil hinner))
    · cases hchange
    · obtain ⟨inner, -, hresult⟩ := bind_eq_ok.1 hchange
      cases hresult
      exact ascending_put h (ascending_tables _)
    · rename_i found inner hfind
      split at hchange
      · cases hchange
      · obtain ⟨inner', hinner, hresult⟩ := bind_eq_ok.1 hchange
        cases hresult
        have hfound := h.2 _ (Table.mem_of_find? hfind)
        exact ascending_put h (ascending_table.2 (ih (ascending_table.1 hfound) hinner))

/-- A pair is added in its place. -/
theorem ascending_addPair {keys : List String} {value : Value} {entries result : Entries}
    (h : Ascending entries) (hvalue : value.Ascending)
    (hadd : addPair keys value entries = .ok result) : Ascending result := by
  refine ascending_change (fun here entries result h hresult => ?_) h hadd
  split at hresult
  · cases hresult
  · cases hresult
    exact ascending_put h (by rwa [toValue])

/-- So is a table that a header names. -/
theorem ascending_addTable {keys : List String} {entries result : Entries}
    (h : Ascending entries) (hadd : addTable keys entries = .ok result) : Ascending result := by
  refine ascending_change (fun here entries result h hresult => ?_) h hadd
  split at hresult
  · cases hresult
    exact ascending_put h (ascending_table.2 ascending_nil)
  · rename_i inner hfind
    cases hresult
    have hfound := h.2 _ (Table.mem_of_find? hfind)
    exact ascending_put h (ascending_table.2 (ascending_table.1 hfound))
  · cases hresult

/-- So is a table of a list of tables. -/
theorem ascending_addToTables {keys : List String} {entries result : Entries}
    (h : Ascending entries) (hadd : addToTables keys entries = .ok result) : Ascending result := by
  refine ascending_change (fun here entries result h hresult => ?_) h hadd
  split at hresult
  · cases hresult
    exact ascending_put h (ascending_tables _)
  · cases hresult
    exact ascending_put h (ascending_tables _)
  · cases hresult

end Item

/-- What has no parts ascends. -/
theorem ascending_readScalar {chars rest : List Char} {value : Value}
    (h : readScalar chars = some (value, rest)) : value.Ascending := by
  unfold readScalar at h
  split at h
  · cases h
    exact .other fun _ h => nomatch h
  · cases h
    exact .other fun _ h => nomatch h
  · obtain ⟨⟨text, behind⟩, -, h⟩ := Option.map_eq_some_iff.1 h
    cases h
    exact .other fun _ h => nomatch h
  · obtain ⟨⟨text, behind⟩, -, h⟩ := Option.map_eq_some_iff.1 h
    cases h
    exact .other fun _ h => nomatch h
  · split at h
    · cases h
      exact .table (List.pairwise_singleton ..)
        (List.forall_mem_singleton.2 (.other fun _ h => nomatch h))
    · split at h
      · cases h
        exact .other fun _ h => nomatch h
      · obtain ⟨⟨value, behind⟩, -, h⟩ := Option.map_eq_some_iff.1 h
        cases h
        exact .other fun _ h => nomatch h

/-- **The values of a document ascend.** -/
theorem ascending_read (fuel : Nat) :
    (∀ depth chars value rest, readValue fuel depth chars = .ok (value, rest) → value.Ascending)
      ∧ ∀ depth chars done result rest, Item.Ascending done →
        readPairs fuel depth chars done = .ok (result, rest) → Item.Ascending result := by
  induction fuel with
  | zero => exact ⟨fun _ _ _ _ h => (nomatch h), fun _ _ _ _ _ _ h => nomatch h⟩
  | succ fuel ih =>
    obtain ⟨hvalue, hpairs⟩ := ih
    refine ⟨fun depth chars value rest h => ?_, fun depth chars done result rest hdone h => ?_⟩
    · unfold readValue at h
      dsimp only at h
      split at h
      · split_ifs at h
        · obtain ⟨⟨items, behind⟩, -, h⟩ := bind_eq_ok.1 h
          cases h
          exact .other fun _ h => nomatch h
      · split_ifs at h
        · split at h
          · cases h
            exact .table .nil fun _ h => nomatch h
          · obtain ⟨⟨entries, behind⟩, hread, h⟩ := bind_eq_ok.1 h
            cases h
            exact Item.ascending_iff.1 (hpairs _ _ _ _ _ Item.ascending_nil hread)
      · unfold orStop at h
        split at h
        · rename_i hscalar
          cases h
          exact ascending_readScalar hscalar
        · cases h
    · rw [readPairs] at h
      obtain ⟨⟨keys, behind⟩, -, h⟩ := bind_eq_ok.1 h
      dsimp only at h
      split at h
      · obtain ⟨⟨value, behind⟩, hread, h⟩ := bind_eq_ok.1 h
        dsimp only at h
        split at h
        · cases h
        · rename_i done' hadd
          have hdone' := Item.ascending_addPair hdone (hvalue _ _ _ _ hread) hadd
          split at h
          · exact hpairs _ _ _ _ _ hdone' h
          · cases h
            exact hdone'
          · cases h
      · cases h

/-- A statement whose value ascends, if it has one. -/
def Statement.Ascending : Statement → Prop
  | .pair _ value => value.Ascending
  | _ => True

theorem ascending_readStatement {chars rest : List Char} {statement : Statement}
    (h : readStatement chars = .ok (statement, rest)) : statement.Ascending := by
  unfold readStatement at h
  split at h
  · obtain ⟨⟨keys, behind⟩, -, h⟩ := bind_eq_ok.1 h
    dsimp only at h
    split at h
    · cases h
      trivial
    · cases h
  · obtain ⟨⟨keys, behind⟩, -, h⟩ := bind_eq_ok.1 h
    dsimp only at h
    split at h
    · cases h
      trivial
    · cases h
  · obtain ⟨⟨keys, behind⟩, -, h⟩ := bind_eq_ok.1 h
    dsimp only at h
    split at h
    · obtain ⟨⟨value, behind⟩, hread, h⟩ := bind_eq_ok.1 h
      cases h
      exact (ascending_read _).1 _ _ _ _ hread
    · cases h

/-- Statements keep the entries of a document ascending. -/
theorem ascending_apply {way way' : List String} {entries result : Item.Entries}
    {statement : Statement} (h : Item.Ascending entries) (hstatement : statement.Ascending)
    (happly : statement.apply way entries = .ok (way', result)) : Item.Ascending result := by
  cases statement with
  | header keys =>
    obtain ⟨entries', hadd, h'⟩ := map_eq_ok.1 happly
    cases h'
    exact Item.ascending_addTable h hadd
  | element keys =>
    obtain ⟨entries', hadd, h'⟩ := map_eq_ok.1 happly
    cases h'
    exact Item.ascending_addToTables h hadd
  | pair keys value =>
    obtain ⟨entries', hadd, h'⟩ := map_eq_ok.1 happly
    cases h'
    exact Item.ascending_change (fun _ _ _ h hresult => Item.ascending_addPair h hstatement hresult)
      h hadd

theorem ascending_readStatements {fuel : Nat} {chars : List Char} {way : List String}
    {entries result : Item.Entries} (h : Item.Ascending entries)
    (hread : readStatements fuel chars way entries = .ok result) : Item.Ascending result := by
  induction fuel generalizing chars way entries with
  | zero =>
    cases hread
    exact h
  | succ fuel ih =>
    unfold readStatements at hread
    split at hread
    · cases hread
      exact h
    · obtain ⟨behind, -, hread⟩ := bind_eq_ok.1 hread
      exact ih h hread
    · obtain ⟨behind, -, hread⟩ := bind_eq_ok.1 hread
      exact ih h hread
    · obtain ⟨behind, -, hread⟩ := bind_eq_ok.1 hread
      exact ih h hread
    · obtain ⟨⟨statement, behind⟩, hstatement, hread⟩ := bind_eq_ok.1 hread
      dsimp only at hread
      split at hread
      · cases hread
      · rename_i way' entries' happly
        obtain ⟨behind', -, hread⟩ := bind_eq_ok.1 hread
        exact ih (ascending_apply h (ascending_readStatement hstatement) happly) hread

/-- **A document ascends.** -/
theorem ascending_document {text : String} {entries : List (String × Value)}
    (h : read text = .ok entries) :
    (Settings.Value.table (Value.entriesOfToml entries)).Ascending := by
  unfold read at h
  dsimp only at h
  split at h
  · rename_i hread
    cases h
    exact Item.ascending_iff.1 (ascending_readStatements Item.ascending_nil hread)
  · cases h
  · cases h

end Rulebook.Toml

namespace Rulebook.Settings

open Rulebook.Document

/-- Entries whose values ascend are put into a table. -/
theorem ascending_readEntries {read : Yaml.Focus → Reading Value}
    (hread : ∀ focus value, (read focus).Yields value → value.Ascending)
    {entries : List (Yaml.Focus × Yaml.Focus)} {table result : Table Value}
    (htable : ∀ entry ∈ table.entries, entry.2.Ascending)
    (h : (readEntries read entries table).Yields result) :
    ∀ entry ∈ result.entries, entry.2.Ascending := by
  induction entries generalizing table with
  | nil =>
    cases Reading.Yields.pure_iff.1 h
    exact htable
  | cons entry rest ih =>
    obtain ⟨name, -, h⟩ := Reading.Yields.of_bind h
    obtain ⟨value, hvalue, h⟩ := h.of_bind
    refine ih (fun entry hentry => ?_) h
    rcases Table.mem_place hentry with rfl | hentry
    · exact hread _ _ hvalue
    · exact htable entry hentry

theorem ascending_ofMeaning (meaning : Yaml.Meaning) : (Value.ofMeaning meaning).Ascending := by
  refine .other fun _ h => ?_
  unfold Value.ofMeaning at h
  split at h
  · cases h
  · cases h
  · split at h
    · cases h
    · cases h
  · cases h
  · cases h

/-- The value of a mapping is a table, and its keys ascend like those of every table. -/
theorem ascending_ofYamlAt (depth : Nat) {focus : Yaml.Focus} {value : Value}
    (h : (Value.ofYamlAt depth focus).Yields value) : value.Ascending := by
  induction depth using Nat.strongRecOn generalizing focus value with
  | ind depth ih =>
    unfold Value.ofYamlAt at h
    replace h := h.of_atPlace
    obtain ⟨focus, -, h⟩ := h.of_bind
    dsimp only at h
    split at h
    · obtain ⟨_, hrefused, -⟩ := h.of_bind
      exact absurd hrefused (Reading.Yields.not_refuse _ _)
    split at h
    · split at h
      · cases Reading.Yields.pure_iff.1 h
        exact ascending_ofMeaning _
      · exact absurd h (Reading.Yields.not_throw _ _)
    · split at h
      · exact absurd h (Reading.Yields.not_refuse _ _)
      · obtain ⟨run, -, h⟩ := h.of_bind
        obtain ⟨items, -, rfl⟩ := h.of_map
        exact .other fun _ h => nomatch h
    · split at h
      · exact absurd h (Reading.Yields.not_refuse _ _)
      · rename_i inner _
        obtain ⟨run, -, h⟩ := h.of_bind
        obtain ⟨table, htable, h⟩ := h.of_bind
        obtain ⟨_, -, h⟩ := h.of_bind
        cases Reading.Yields.pure_iff.1 h
        exact .table table.ascending (ascending_readEntries
          (fun _ _ hvalue => ih inner (Nat.lt_succ_self _) hvalue)
          (fun _ h => absurd h List.not_mem_nil) htable)
    · cases Reading.Yields.pure_iff.1 h
      exact .other fun _ h => nomatch h

/-- **A file of settings gives an ascending table**, in whatever language it is written. -/
theorem ascending_ofText {text : String} {format : Format} {value : Value}
    (h : Value.ofText text format = .ok value) : value.Ascending ∧ value.IsTable := by
  cases format with
  | toml =>
    rw [Value.ofText] at h
    split at h
    · rename_i hread
      cases h
      exact ⟨Toml.ascending_document hread, _, rfl⟩
    · cases h
  | yaml =>
    rw [Value.ofText] at h
    split at h
    · rename_i table hread
      cases h
      obtain ⟨run, -, hentries⟩ := (Yaml.yields_of_read hread).of_atPlace.of_bind
      obtain ⟨read, hread, hentries⟩ := hentries.of_bind
      obtain ⟨_, -, hentries⟩ := hentries.of_bind
      cases Reading.Yields.pure_iff.1 hentries
      exact ⟨.table table.ascending (ascending_readEntries
        (fun focus _ hvalue => ascending_ofYamlAt focus.depth hvalue)
        (fun _ h => absurd h List.not_mem_nil) hread), _, rfl⟩
    · cases h

end Rulebook.Settings
