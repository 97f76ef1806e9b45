import Rulebook.Settings.Load
import Mathlib.Data.List.Induction
import Mathlib.Data.List.Pairwise

/-!
# Settings laid over one another

What a table laid over another has under a key is what the upper one has there, laid over what the
lower one has (`find?_entriesOver`). This takes tables whose keys ascend, and `Ascending` says so of
a value all the way down. From there on, places are looked at rather than keys: `under` follows keys
downwards. Where two values set nothing twice (`Apart`), what stands at a place in the one laid over
the other stands there in one of them (`under_laidOver`), and the same holds of any number of values
(`under_layered`).

Each variable of the environment is such a value, and the environment is what they make up
(`Environment.values_eq`). So what it has at a place is what one of its variables sets there
(`Environment.under_values`), in whatever order they come.
-/

namespace Rulebook.Settings

namespace Value

/-! ## Tables with ascending keys -/

/-- **Every table ascends**, down to the lists, whose items are never looked into. -/
inductive Ascending : Value → Prop where
  /-- A table ascends when its keys do and its values are such. -/
  | table {entries : List (String × Value)} (hkeys : entries.Pairwise fun a b => a.1 < b.1)
    (h : ∀ entry ∈ entries, Ascending entry.2) : Ascending (.table entries)
  /-- Anything else does. -/
  | other {value : Value} (h : ∀ entries, value ≠ .table entries) : Ascending value

theorem Ascending.get? {value part : Value} {name : String} (h : value.Ascending)
    (hpart : value.get? name = some part) : part.Ascending := by
  cases h with
  | table hkeys h => exact h _ (Table.mem_of_find? hpart)
  | other h =>
    cases value with
    | table entries => exact absurd rfl (h entries)
    | _ => cases hpart

/-- Placing an ascending value keeps a table ascending. -/
theorem Ascending.place {entries : List (String × Value)} (h : (Value.table entries).Ascending)
    (name : String) {value : Value} (hvalue : value.Ascending) :
    (Value.table (Table.place name value entries)).Ascending := by
  cases h with
  | table hkeys h =>
    refine .table (Table.place_ascending name value hkeys) fun entry hentry => ?_
    rcases Table.mem_place hentry with rfl | hentry
    · exact hvalue
    · exact h entry hentry
  | other h => exact absurd rfl (h entries)

/-! ## Layers -/

/-- One part laid over another, where there is one. -/
def laidOver? : Option Value → Option Value → Option Value
  | some upper, some lower => some (upper.laidOver lower)
  | some upper, none => some upper
  | none, lower => lower

/-- **What is found in entries laid over others** is what is found in the ones laid over what is
found in the others. -/
theorem find?_entriesOver {upper lower : List (String × Value)}
    (hupper : upper.Pairwise fun a b => a.1 < b.1) (name : String) :
    Table.find? name (entriesOver upper lower)
      = laidOver? (Table.find? name upper) (Table.find? name lower) := by
  induction upper generalizing lower with
  | nil => rw [entriesOver]; rfl
  | cons entry rest ih =>
    obtain ⟨key, value⟩ := entry
    obtain ⟨hfirst, hrest⟩ := List.pairwise_cons.1 hupper
    rw [entriesOver, ih hrest, Table.find?_place, Table.find?]
    by_cases hkey : key = name
    · -- no later entry has this key
      have hnone : Table.find? name rest = none := by
        by_contra hsome
        obtain ⟨other, hother⟩ := Option.ne_none_iff_exists'.1 hsome
        have hlt := hfirst _ (Table.mem_of_find? hother)
        exact String.lt_irrefl _ (hkey ▸ hlt)
      rw [if_pos hkey, if_pos hkey, hnone, hkey]
      cases Table.find? name lower <;> rfl
    · rw [if_neg hkey, if_neg hkey]

/-- Entries laid over ascending ones ascend if what each becomes does. -/
theorem ascending_entriesOver {upper lower : List (String × Value)}
    (hupper : ∀ entry ∈ upper, entry.2.Ascending
      ∧ ∀ below : Value, below.Ascending → (entry.2.laidOver below).Ascending)
    (hlower : (Value.table lower).Ascending) :
    (Value.table (entriesOver upper lower)).Ascending := by
  induction upper generalizing lower with
  | nil => rwa [entriesOver]
  | cons entry rest ih =>
    obtain ⟨⟨hvalue, hlaid⟩, hrest⟩ := List.forall_mem_cons.1 hupper
    rw [entriesOver]
    refine ih hrest (hlower.place entry.1 ?_)
    cases hbelow : Table.find? entry.1 lower with
    | none => exact hvalue
    | some below => exact hlaid below (hlower.get? hbelow)

/-- **What is laid over ascending values ascends** if it did before. -/
theorem Ascending.laidOver {upper : Value} (hupper : upper.Ascending) {lower : Value}
    (hlower : lower.Ascending) : (upper.laidOver lower).Ascending := by
  induction hupper generalizing lower with
  | @table entries hkeys h ih =>
    cases lower with
    | table below =>
      rw [Value.laidOver]
      exact ascending_entriesOver
        (fun entry hentry => ⟨h entry hentry, fun _ => ih entry hentry⟩) hlower
    | _ => exact .table hkeys h
  | @other value h =>
    cases value with
    | table entries => exact absurd rfl (h entries)
    | _ => exact .other h

/-! ## What stands at a place -/

/-- **What stands at a place** to which keys lead. -/
def under : List String → Value → Option Value
  | [], value => some value
  | key :: keys, value => (value.get? key).bind (under keys)

/-- Whether a value is a table. -/
def IsTable (value : Value) : Prop := ∃ entries, value = .table entries

/-- **Two values set nothing twice**: where something stands in both, tables stand in both. -/
def Apart (value other : Value) : Prop :=
  ∀ place part part', value.under place = some part → other.under place = some part' →
    part.IsTable ∧ part'.IsTable

theorem Apart.get? {value other part part' : Value} (h : value.Apart other) {key : String}
    (hpart : value.get? key = some part) (hpart' : other.get? key = some part') :
    part.Apart part' := by
  intro place inner inner' hinner hinner'
  refine h (key :: place) inner inner' ?_ ?_
  · rw [under, hpart, Option.bind_some, hinner]
  · rw [under, hpart', Option.bind_some, hinner']

instance : Std.Symm Apart where
  symm _ _ h place _ _ hpart hpart' := (h place _ _ hpart' hpart).symm

/-- What is found in a value laid over another. -/
theorem get?_laidOver {upper lower : List (String × Value)} (hupper : (Value.table upper).Ascending)
    (key : String) : ((Value.table upper).laidOver (.table lower)).get? key
      = laidOver? ((Value.table upper).get? key) ((Value.table lower).get? key) := by
  cases hupper with
  | table hkeys _ =>
    rw [Value.laidOver]
    exact find?_entriesOver hkeys key
  | other h => exact absurd rfl (h upper)

/-- **What stands at a place in two values that set nothing twice** stands there in one of them. -/
theorem under_laidOver {upper lower part : Value} (hupper : upper.Ascending)
    (hapart : upper.Apart lower) (hpart : ¬ part.IsTable) {place : List String} :
    (upper.laidOver lower).under place = some part
      ↔ upper.under place = some part ∨ lower.under place = some part := by
  induction place generalizing upper lower with
  | nil =>
    -- tables stand in both at the beginning, so nothing else stands there
    obtain ⟨⟨above, rfl⟩, below, rfl⟩ := hapart [] upper lower rfl rfl
    have hne (entries : List (String × Value)) : (Value.table entries).under [] ≠ some part :=
      fun h => hpart ⟨entries, (Option.some.inj h).symm⟩
    rw [Value.laidOver]
    simp only [hne, or_self]
  | cons key keys ih =>
    obtain ⟨⟨above, rfl⟩, below, rfl⟩ := hapart [] upper lower rfl rfl
    rw [under, under, under, get?_laidOver hupper]
    cases habove : (Value.table above).get? key with
    | none => simp [laidOver?]
    | some inner =>
      cases hbelow : (Value.table below).get? key with
      | none => simp [laidOver?]
      | some inner' => exact ih (hupper.get? habove) (hapart.get? habove hbelow)

/-- Something stands at a place only if something stood there in one of the two. -/
theorem exists_under_of_laidOver {upper lower part : Value} (hupper : upper.Ascending)
    {place : List String} (h : (upper.laidOver lower).under place = some part) :
    (∃ part', upper.under place = some part') ∨ ∃ part', lower.under place = some part' := by
  induction place generalizing upper lower with
  | nil => exact .inl ⟨upper, rfl⟩
  | cons key keys ih =>
    cases upper with
    | table above =>
      cases lower with
      | table below =>
        rw [under, get?_laidOver hupper] at h
        rw [under, under]
        cases habove : (Value.table above).get? key with
        | none =>
          rw [habove] at h
          exact .inr ⟨part, h⟩
        | some inner =>
          rw [habove] at h
          cases hbelow : (Value.table below).get? key with
          | none =>
            rw [hbelow] at h
            exact .inl ⟨part, h⟩
          | some inner' =>
            rw [hbelow] at h
            exact ih (hupper.get? habove) h
      | _ => exact .inl ⟨part, h⟩
    | _ => exact .inl ⟨part, h⟩

/-- What stands at a place in one of two values that set nothing twice leaves something there. -/
theorem exists_under_laidOver {upper lower : Value} (hupper : upper.Ascending)
    (hapart : upper.Apart lower) {place : List String}
    (h : (∃ part, upper.under place = some part) ∨ ∃ part, lower.under place = some part) :
    ∃ part, (upper.laidOver lower).under place = some part := by
  induction place generalizing upper lower with
  | nil => exact ⟨_, rfl⟩
  | cons key keys ih =>
    obtain ⟨⟨above, rfl⟩, below, rfl⟩ := hapart [] upper lower rfl rfl
    rw [under, under] at h
    rw [under, get?_laidOver hupper]
    cases habove : (Value.table above).get? key with
    | none =>
      rw [habove] at h
      exact h.elim (fun h => nomatch h.choose_spec) id
    | some inner =>
      cases hbelow : (Value.table below).get? key with
      | none =>
        rw [habove, hbelow] at h
        exact h.elim id fun h => nomatch h.choose_spec
      | some inner' =>
        rw [habove, hbelow] at h
        exact ih (hupper.get? habove) (hapart.get? habove hbelow) h

/-- What is set layer by layer, the lowest one first. -/
def layered (values : List Value) : Value :=
  values.foldl (fun below value => value.laidOver below) .empty

theorem layered_append (values : List Value) (value : Value) :
    layered (values ++ [value]) = value.laidOver (layered values) := by
  rw [layered, List.foldl_append]
  rfl

theorem ascending_layered {values : List Value} (h : ∀ value ∈ values, value.Ascending) :
    (layered values).Ascending := by
  induction values using List.reverseRecOn with
  | nil => exact .table .nil fun _ h => nomatch h
  | append_singleton values value ih =>
    rw [layered_append]
    obtain ⟨hvalues, hvalue⟩ := List.forall_mem_append.1 h
    exact (hvalue value (List.mem_singleton_self _)).laidOver (ih hvalues)

/-- Something stands at a place only if something stood there in one of the values. -/
theorem exists_under_of_layered {values : List Value} (h : ∀ value ∈ values, value.Ascending)
    {key : String} {keys : List String} {part : Value}
    (hpart : (layered values).under (key :: keys) = some part) :
    ∃ value ∈ values, ∃ part', value.under (key :: keys) = some part' := by
  induction values using List.reverseRecOn generalizing part with
  | nil => cases hpart
  | append_singleton values value ih =>
    rw [layered_append] at hpart
    obtain ⟨hvalues, hvalue⟩ := List.forall_mem_append.1 h
    rcases exists_under_of_laidOver (hvalue value (List.mem_singleton_self _)) hpart with
      hupper | ⟨part', hlower⟩
    · exact ⟨value, by simp, hupper⟩
    · obtain ⟨other, hother, hunder⟩ := ih hvalues hlower
      exact ⟨other, List.mem_append_left _ hother, hunder⟩

theorem isTable_layered {values : List Value} (h : ∀ value ∈ values, value.IsTable) :
    (layered values).IsTable := by
  induction values using List.reverseRecOn with
  | nil => exact ⟨[], rfl⟩
  | append_singleton values value ih =>
    obtain ⟨hvalues, hvalue⟩ := List.forall_mem_append.1 h
    obtain ⟨above, rfl⟩ := hvalue value (List.mem_singleton_self _)
    obtain ⟨below, hbelow⟩ := ih hvalues
    rw [layered_append, hbelow, laidOver]
    exact ⟨_, rfl⟩

/-- A table that sets nothing that one of the values sets has nothing in common with what they set
together, provided that what is no table stands in one of them. -/
theorem apart_layered_of {values : List Value} {value : Value}
    (h : ∀ other ∈ values, other.Ascending ∧ other.IsTable) (htable : value.IsTable)
    (hapart : ∀ other ∈ values, other.Apart value)
    (hunder : ∀ place part, ¬ part.IsTable → (layered values).under place = some part →
      ∃ other ∈ values, other.under place = some part) :
    value.Apart (layered values) := by
  intro place inner inner' hinner hinner'
  cases place with
  | nil =>
    cases hinner
    cases hinner'
    exact ⟨htable, isTable_layered fun other hother => (h other hother).2⟩
  | cons key keys =>
    obtain ⟨other, hother, inner'', hinner''⟩ :=
      exists_under_of_layered (fun other hother => (h other hother).1) hinner'
    refine ⟨(hapart other hother _ _ _ hinner'' hinner).2, ?_⟩
    by_contra hnot
    obtain ⟨other, hother, hstands⟩ := hunder _ _ hnot hinner'
    exact hnot (hapart other hother _ _ _ hstands hinner).1

/-- **What stands at a place in values that set nothing twice** stands there in one of them. -/
theorem under_layered {values : List Value}
    (h : ∀ value ∈ values, value.Ascending ∧ value.IsTable) (hapart : values.Pairwise Apart)
    {place : List String} {part : Value} (hpart : ¬ part.IsTable) :
    (layered values).under place = some part ↔ ∃ value ∈ values, value.under place = some part := by
  induction values using List.reverseRecOn generalizing place part with
  | nil =>
    cases place with
    | nil =>
      refine ⟨fun heq => absurd ⟨[], (Option.some.inj heq).symm⟩ hpart, fun h => ?_⟩
      obtain ⟨_, hmem, -⟩ := h
      cases hmem
    | cons key keys => simp [layered, under, empty, get?, Table.find?]
  | append_singleton values value ih =>
    obtain ⟨hvalues, hvalue⟩ := List.forall_mem_append.1 h
    obtain ⟨hascending, htable⟩ := hvalue value (List.mem_singleton_self _)
    obtain ⟨hapart, -, hlast⟩ := List.pairwise_append.1 hapart
    have hnew : value.Apart (layered values) :=
      apart_layered_of hvalues htable
        (fun other hother => hlast other hother value (List.mem_singleton_self _))
        fun place part hnot => (ih hvalues hapart hnot).1
    rw [layered_append, under_laidOver hascending hnew hpart, ih hvalues hapart hpart]
    simp only [List.mem_append, List.mem_singleton, or_and_right, exists_or, exists_eq_left]
    exact or_comm

/-- **A table that sets nothing that one of the values sets** has nothing in common with what they
set together. -/
theorem apart_layered {values : List Value} {value : Value}
    (h : ∀ other ∈ values, other.Ascending ∧ other.IsTable) (hapart : values.Pairwise Apart)
    (htable : value.IsTable) (hvalue : ∀ other ∈ values, other.Apart value) :
    value.Apart (layered values) :=
  apart_layered_of h htable hvalue fun _ _ hnot => (under_layered h hapart hnot).1

/-- What stands at a place in one of the values leaves something there. -/
theorem exists_under_layered {values : List Value}
    (h : ∀ value ∈ values, value.Ascending ∧ value.IsTable) (hapart : values.Pairwise Apart)
    {place : List String} {value part : Value} (hvalue : value ∈ values)
    (hpart : value.under place = some part) :
    ∃ part', (layered values).under place = some part' := by
  induction values using List.reverseRecOn with
  | nil => cases hvalue
  | append_singleton values last ih =>
    obtain ⟨hvalues, hlast⟩ := List.forall_mem_append.1 h
    obtain ⟨hascending, htable⟩ := hlast last (List.mem_singleton_self _)
    obtain ⟨hapart, -, hnew⟩ := List.pairwise_append.1 hapart
    have hlayered : last.Apart (layered values) := apart_layered hvalues hapart htable
      fun other hother => hnew other hother last (List.mem_singleton_self _)
    rw [layered_append]
    refine exists_under_laidOver hascending hlayered ?_
    rcases List.mem_append.1 hvalue with hvalue | hvalue
    · exact .inr (ih hvalues hapart hvalue)
    · obtain rfl := List.mem_singleton.1 hvalue
      exact .inl ⟨part, hpart⟩

end Value

/-! ## Variables of the environment -/

namespace Environment

open Value

/-- What is no table ascends. -/
theorem ascending_wordValue (word : List Char) : (wordValue word).Ascending := by
  rw [wordValue]
  split
  · exact .other fun _ h => nomatch h
  · split
    · split
      · exact .other fun _ h => nomatch h
      · exact .other fun _ h => nomatch h
    · exact .other fun _ h => nomatch h

/-- The values in the language of variables ascend. -/
theorem ascending_read (fuel : Nat) :
    (∀ chars value rest, readValue fuel chars = some (value, rest) → value.Ascending)
      ∧ ∀ chars done entries rest, (Value.table done).Ascending →
        readEntries fuel chars done = some (entries, rest) → (Value.table entries).Ascending := by
  induction fuel with
  | zero => exact ⟨fun _ _ _ h => (nomatch h), fun _ _ _ _ _ h => nomatch h⟩
  | succ fuel ih =>
    obtain ⟨hvalue, hentries⟩ := ih
    refine ⟨fun chars value rest h => ?_, fun chars done entries rest hdone h => ?_⟩
    · rw [readValue] at h
      split at h
      · cases h
        exact .other fun _ h => nomatch h
      · cases h
        exact .other fun _ h => nomatch h
      · obtain ⟨⟨entries, behind⟩, hread, h⟩ := Option.bind_eq_some_iff.1 h
        cases h
        exact hentries _ _ _ _ (.table .nil fun _ h => nomatch h) hread
      · obtain ⟨⟨items, behind⟩, -, h⟩ := Option.bind_eq_some_iff.1 h
        cases h
        exact .other fun _ h => nomatch h
      · obtain ⟨⟨text, behind⟩, -, h⟩ := Option.bind_eq_some_iff.1 h
        cases h
        exact .other fun _ h => nomatch h
      · cases h
        exact .other fun _ h => nomatch h
      · cases h
      · cases h
        exact ascending_wordValue _
    · unfold readEntries at h
      dsimp only at h
      split at h
      · cases h
        exact hdone
      · obtain ⟨⟨key, behind⟩, -, h⟩ := Option.bind_eq_some_iff.1 h
        dsimp only at h
        split at h
        · obtain ⟨⟨value, behind⟩, hread, h⟩ := Option.bind_eq_some_iff.1 h
          have hplaced := hdone.place key (hvalue _ _ _ hread)
          dsimp only at h
          split at h
          · exact hentries _ _ _ _ hplaced h
          · cases h
            exact hplaced
          · cases h
        · cases h

/-- **What a variable gives ascends.** -/
theorem ascending_valueOf (written : String) : (valueOf written).Ascending := by
  rw [valueOf]
  split
  · rename_i hread
    exact (ascending_read _).1 _ _ _ hread
  · exact .other fun _ h => nomatch h

/-- What a variable sets, alone. -/
def setting? (start : String) (entry : String × String) : Option Value :=
  (place? start entry.1).map fun place => .nested place (valueOf entry.2)

/-- The variables are layers, the first one being the lowest. -/
theorem values_eq (start : String) (environment : List (String × String)) :
    values start environment = layered (environment.filterMap (setting? start)) := by
  rw [values, layered]
  generalize Value.empty = below
  induction environment generalizing below with
  | nil => rfl
  | cons entry rest ih =>
    obtain ⟨name, written⟩ := entry
    rw [List.foldl_cons, ih, List.filterMap_cons, setting?]
    dsimp only
    cases place? start name <;> rfl

/-- A name that sets something leads somewhere. -/
theorem place?_ne_nil {start name : String} {place : List String}
    (h : place? start name = some place) : place ≠ [] := by
  have hpieces (chars : List Char) : pieces chars ≠ [] := by
    fun_induction pieces chars <;> simp
  rw [place?] at h
  split at h
  · cases h
  · dsimp only at h
    split at h
    · cases h
    · cases h
      simpa using hpieces _

theorem ascending_nested {value : Value} (h : value.Ascending) (place : List String) :
    (Value.nested place value).Ascending := by
  induction place with
  | nil => exact h
  | cons key keys ih =>
    rw [nested]
    exact .table (List.pairwise_singleton ..) (List.forall_mem_singleton.2 ih)

/-- What a variable sets alone is an ascending table. -/
theorem sound_setting? {start : String} {environment : List (String × String)} :
    ∀ value ∈ environment.filterMap (setting? start), value.Ascending ∧ value.IsTable := by
  intro value hvalue
  obtain ⟨entry, -, hsetting⟩ := List.mem_filterMap.1 hvalue
  obtain ⟨place, hplace, rfl⟩ := Option.map_eq_some_iff.1 hsetting
  refine ⟨ascending_nested (ascending_valueOf _) place, ?_⟩
  cases place with
  | nil => exact absurd rfl (place?_ne_nil hplace)
  | cons key keys => exact ⟨_, rfl⟩

/-- What a value at a place has further down, if it is no table that stands above. -/
theorem under_nested {value part : Value} (hpart : ¬ part.IsTable) {way place : List String} :
    (Value.nested way value).under place = some part
      ↔ ∃ inner, place = way ++ inner ∧ value.under inner = some part := by
  induction way generalizing place with
  | nil => simp [nested]
  | cons key keys ih =>
    cases place with
    | nil =>
      refine ⟨fun h => absurd ⟨_, (Option.some.inj h).symm⟩ hpart, fun h => ?_⟩
      obtain ⟨_, heq, -⟩ := h
      cases heq
    | cons first rest =>
      rw [nested, under, get?, Table.find?]
      by_cases hkey : key = first
      · rw [if_pos hkey, Option.bind_some, ih]
        simp [hkey]
      · rw [if_neg hkey]
        simp [Table.find?, Ne.symm hkey]

/-- What a value has further down stands there at the place of the value. -/
theorem under_nested_append {value part : Value} {way inner : List String}
    (h : value.under inner = some part) :
    (Value.nested way value).under (way ++ inner) = some part := by
  induction way with
  | nil => exact h
  | cons key keys ih => simp [nested, under, get?, Table.find?, ih]

/-- **A variable sets what stands at a place**, as its value or as a part of it. -/
def Sets (start : String) (entry : String × String) (place : List String) (part : Value) : Prop :=
  ∃ way inner, place = way ++ inner ∧ place? start entry.1 = some way
    ∧ (valueOf entry.2).under inner = some part

/-- What a variable sets stands in what it sets alone. -/
theorem Sets.exists_setting {start : String} {entry : String × String} {place : List String}
    {part : Value} (h : Sets start entry place part) :
    ∃ value, setting? start entry = some value ∧ value.under place = some part := by
  obtain ⟨way, inner, rfl, hway, hinner⟩ := h
  exact ⟨_, by rw [setting?, hway, Option.map_some], under_nested_append hinner⟩

/-- **No two variables set the same.** -/
def Once (start : String) (environment : List (String × String)) : Prop :=
  (environment.filterMap (setting? start)).Pairwise Apart

section Once

variable {start : String} {environment : List (String × String)}

/-- **What the environment sets at a place** is what one of its variables sets there. -/
theorem under_values (honce : Once start environment) {place : List String} {part : Value}
    (hpart : ¬ part.IsTable) : (values start environment).under place = some part
      ↔ ∃ entry ∈ environment, Sets start entry place part := by
  rw [values_eq, under_layered sound_setting? honce hpart]
  constructor
  · rintro ⟨value, hvalue, hunder⟩
    obtain ⟨entry, hentry, hsetting⟩ := List.mem_filterMap.1 hvalue
    obtain ⟨way, hway, rfl⟩ := Option.map_eq_some_iff.1 hsetting
    obtain ⟨inner, hplace, hinner⟩ := (under_nested hpart).1 hunder
    exact ⟨entry, hentry, way, inner, hplace, hway, hinner⟩
  · rintro ⟨entry, hentry, hsets⟩
    obtain ⟨value, hsetting, hunder⟩ := hsets.exists_setting
    exact ⟨value, List.mem_filterMap.2 ⟨entry, hentry, hsetting⟩, hunder⟩

/-- What a variable sets at a place leaves something there. -/
theorem exists_under_values (honce : Once start environment) {entry : String × String}
    (hentry : entry ∈ environment) {place : List String} {part : Value}
    (hsets : Sets start entry place part) :
    ∃ part', (values start environment).under place = some part' := by
  obtain ⟨value, hsetting, hunder⟩ := hsets.exists_setting
  rw [values_eq]
  exact exists_under_layered sound_setting? honce
    (List.mem_filterMap.2 ⟨entry, hentry, hsetting⟩) hunder

/-- Where a variable sets a table, the environment has one. -/
theorem isTable_under_values (honce : Once start environment) {entry : String × String}
    (hentry : entry ∈ environment) {place : List String} {part : Value}
    (hsets : Sets start entry place part) (htable : part.IsTable) :
    ∃ part', (values start environment).under place = some part' ∧ part'.IsTable := by
  obtain ⟨part', hpart'⟩ := exists_under_values honce hentry hsets
  refine ⟨part', hpart', ?_⟩
  by_contra hnot
  obtain ⟨other, hother, hsets'⟩ := (under_values honce hnot).1 hpart'
  obtain ⟨value, hsetting, hunder⟩ := hsets.exists_setting
  obtain ⟨value', hsetting', hunder'⟩ := hsets'.exists_setting
  by_cases heq : value = value'
  · rw [← heq, hunder] at hunder'
    cases hunder'
    exact hnot htable
  · have hapart := List.Pairwise.forall honce (List.mem_filterMap.2 ⟨entry, hentry, hsetting⟩)
      (List.mem_filterMap.2 ⟨other, hother, hsetting'⟩) heq
    exact hnot (hapart _ _ _ hunder hunder').2

end Once

end Environment

end Rulebook.Settings
