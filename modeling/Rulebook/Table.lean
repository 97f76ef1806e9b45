/-!
# Tables

Everything the catalogue keeps under a name – groups, rules, error keys, labels – is a **table**:
a finite map from names to values whose order of presentation is the order of the names,
code point by code point. That order is part of what a reader of the output sees, so it is part of
the type: a table *is* its list of entries, with the names strictly increasing. Two tables with
the same entries are therefore equal, whatever the order in which they were filled.

The view is `Table.get?`. `Table.get?_insert` says what one insertion does to it, and
`Table.ext_get?` says that a table is determined by its view.
-/

namespace Rulebook

/-- **A finite map from names to values**, its entries in the order of the names. -/
structure Table (V : Type) where
  /-- The entries in ascending order of their names. -/
  entries : List (String × V)
  /-- No name occurs twice, and the names ascend. -/
  ascending : entries.Pairwise fun a b => a.1 < b.1
deriving DecidableEq

namespace Table

variable {V W : Type}

/-- The table with no entry. -/
def empty : Table V := ⟨[], .nil⟩

instance : EmptyCollection (Table V) := ⟨empty⟩

instance : Inhabited (Table V) := ⟨empty⟩

/-- The value that a list of entries holds under a name. -/
def find? (name : String) : List (String × V) → Option V
  | [] => none
  | (key, value) :: rest => if key = name then some value else find? name rest

/-- What is found under a name is in the list. -/
theorem mem_of_find? {name : String} {value : V} {list : List (String × V)}
    (h : find? name list = some value) : (name, value) ∈ list := by
  induction list with
  | nil => cases h
  | cons entry rest ih =>
    rw [find?] at h
    split at h
    · rename_i hname
      cases h
      rw [← hname]
      exact List.mem_cons_self ..
    · exact List.mem_cons_of_mem _ (ih h)

/-- The value stored under a name. -/
def get? (table : Table V) (name : String) : Option V := find? name table.entries

/-- Whether a name is present. -/
def contains (table : Table V) (name : String) : Bool := (table.get? name).isSome

/-- The names, ascending. -/
def keys (table : Table V) : List String := table.entries.map (·.1)

/-- The values, in the order of their names. -/
def values (table : Table V) : List V := table.entries.map (·.2)

/-- The number of entries. -/
def size (table : Table V) : Nat := table.entries.length

/-- Something is found under the name of an entry. -/
theorem find?_ne_none_of_mem {entry : String × V} {list : List (String × V)} (h : entry ∈ list) :
    find? entry.1 list ≠ none := by
  induction list with
  | nil => cases h
  | cons head rest ih =>
    rw [find?]
    rcases List.mem_cons.1 h with rfl | h
    · rw [if_pos rfl]
      exact Option.some_ne_none _
    · split
      · exact Option.some_ne_none _
      · exact ih h

/-- Puts a value under a name into an ascending list, replacing what was there. -/
def place (name : String) (value : V) : List (String × V) → List (String × V)
  | [] => [(name, value)]
  | (key, old) :: rest =>
    if name < key then (name, value) :: (key, old) :: rest
    else if name = key then (name, value) :: rest
    else (key, old) :: place name value rest

/-- Every entry of the list after `place` is the placed one or was there before. -/
theorem mem_place {name : String} {value : V} {list : List (String × V)}
    {entry : String × V} (h : entry ∈ place name value list) :
    entry = (name, value) ∨ entry ∈ list := by
  induction list with
  | nil => exact .inl (List.mem_singleton.1 h)
  | cons head rest ih =>
    obtain ⟨key, old⟩ := head
    simp only [place] at h
    split at h
    · rcases List.mem_cons.1 h with rfl | h
      · exact .inl rfl
      · exact .inr h
    · split at h
      · rcases List.mem_cons.1 h with rfl | h
        · exact .inl rfl
        · exact .inr (List.mem_cons_of_mem _ h)
      · rcases List.mem_cons.1 h with rfl | h
        · exact .inr (List.mem_cons_self ..)
        · rcases ih h with h | h
          · exact .inl h
          · exact .inr (List.mem_cons_of_mem _ h)

/-- Of two different names one comes first. -/
theorem lt_of_not_lt_of_ne {a b : String} (h : ¬ a < b) (hne : a ≠ b) : b < a :=
  Decidable.byContradiction fun h' => hne (String.le_antisymm h' h)

/-- Placing keeps a list ascending. -/
theorem place_ascending (name : String) (value : V) {list : List (String × V)}
    (h : list.Pairwise fun a b => a.1 < b.1) :
    (place name value list).Pairwise fun a b => a.1 < b.1 := by
  induction list with
  | nil => simp [place]
  | cons head rest ih =>
    obtain ⟨key, old⟩ := head
    obtain ⟨hhead, hrest⟩ := List.pairwise_cons.1 h
    simp only [place]
    split
    · rename_i hlt
      refine List.pairwise_cons.2 ⟨fun entry hentry => ?_, h⟩
      rcases List.mem_cons.1 hentry with rfl | hentry
      · exact hlt
      · exact String.lt_trans hlt (hhead entry hentry)
    · split
      · rename_i heq
        exact List.pairwise_cons.2 ⟨fun entry hentry => heq ▸ hhead entry hentry, hrest⟩
      · rename_i hnlt hne
        refine List.pairwise_cons.2 ⟨fun entry hentry => ?_, ih hrest⟩
        rcases mem_place hentry with rfl | h
        · exact lt_of_not_lt_of_ne hnlt hne
        · exact hhead entry h

/-- **Stores a value under a name**, replacing what was stored there. -/
def insert (table : Table V) (name : String) (value : V) : Table V :=
  ⟨place name value table.entries, place_ascending name value table.ascending⟩

/-- The table of a list of entries; of two entries with one name the later is kept. -/
def ofList (list : List (String × V)) : Table V :=
  list.foldl (fun table entry => table.insert entry.1 entry.2) empty

/-- Changes every value and keeps the names. -/
def map (f : V → W) (table : Table V) : Table W :=
  ⟨table.entries.map fun entry => (entry.1, f entry.2), by
    rw [List.pairwise_map]; exact table.ascending⟩

/-- Keeps the entries that satisfy a condition. -/
def filter (keep : String → V → Bool) (table : Table V) : Table V :=
  ⟨table.entries.filter fun entry => keep entry.1 entry.2, table.ascending.filter _⟩

/-- What `place` does to what is found under each name. -/
theorem find?_place (name other : String) (value : V) (list : List (String × V)) :
    find? other (place name value list) =
      if name = other then some value else find? other list := by
  induction list with
  | nil => simp [place, find?]
  | cons head rest ih =>
    obtain ⟨key, old⟩ := head
    simp only [place]
    split
    · simp [find?]
    · split
      · rename_i heq
        subst heq
        by_cases ho : name = other <;> simp [find?, ho]
      · rename_i hne
        simp only [find?, ih]
        by_cases hk : key = other
        · subst hk
          simp [hne]
        · simp [hk]

/-- **One insertion changes one name.** -/
theorem get?_insert (table : Table V) (name other : String) (value : V) :
    (table.insert name value).get? other = if name = other then some value else table.get? other :=
  find?_place name other value table.entries

@[simp] theorem get?_empty (name : String) : (empty : Table V).get? name = none := rfl

/-- A name is found with a value exactly when the entry is in the list. -/
theorem find?_eq_some_iff {list : List (String × V)}
    (h : list.Pairwise fun a b => a.1 < b.1) (name : String) (value : V) :
    find? name list = some value ↔ (name, value) ∈ list := by
  induction list with
  | nil => simp [find?]
  | cons head rest ih =>
    obtain ⟨key, old⟩ := head
    obtain ⟨hhead, hrest⟩ := List.pairwise_cons.1 h
    simp only [find?]
    split
    · rename_i heq
      subst heq
      constructor
      · intro h'
        simp only [Option.some.injEq] at h'
        exact h' ▸ List.mem_cons_self ..
      · intro h'
        rcases List.mem_cons.1 h' with h' | h'
        · simp only [Prod.mk.injEq, true_and] at h'
          rw [h']
        · exact absurd (hhead _ h') (String.lt_irrefl _)
    · rename_i hne
      rw [ih hrest]
      constructor
      · exact List.mem_cons_of_mem _
      · intro h'
        rcases List.mem_cons.1 h' with h' | h'
        · simp only [Prod.mk.injEq] at h'
          exact absurd h'.1.symm hne
        · exact h'

/-- **The view and the entries say the same.** -/
theorem get?_eq_some_iff (table : Table V) (name : String) (value : V) :
    table.get? name = some value ↔ (name, value) ∈ table.entries :=
  find?_eq_some_iff table.ascending name value

theorem contains_iff (table : Table V) (name : String) :
    table.contains name = true ↔ ∃ value, table.get? name = some value :=
  Option.isSome_iff_exists

/-- A name is present exactly when some entry is stored under it. -/
theorem contains_iff_mem_keys (table : Table V) (name : String) :
    table.contains name = true ↔ name ∈ table.keys := by
  rw [contains_iff, keys, List.mem_map]
  constructor
  · rintro ⟨value, h⟩
    exact ⟨(name, value), (table.get?_eq_some_iff name value).1 h, rfl⟩
  · rintro ⟨⟨_, value⟩, h, rfl⟩
    exact ⟨value, (table.get?_eq_some_iff _ value).2 h⟩

/-- The names strictly ascend. -/
theorem keys_ascending (table : Table V) : table.keys.Pairwise (· < ·) :=
  List.pairwise_map.2 table.ascending

/-- Ascending lists with the same members are equal. -/
theorem eq_of_ascending {α : Type} {r : α → α → Prop} (irrefl : ∀ a, ¬ r a a)
    (trans : ∀ a b c, r a b → r b c → r a c) {list other : List α} (h : list.Pairwise r)
    (h' : other.Pairwise r) (hmem : ∀ a, a ∈ list ↔ a ∈ other) : list = other := by
  have hne {a b : α} (hab : r a b) : a ≠ b := fun heq => irrefl b (heq ▸ hab)
  refine List.Perm.eq_of_pairwise (fun a b _ _ hab hba => absurd (trans a b a hab hba) (irrefl a))
    h h' ?_
  exact (List.perm_ext_iff_of_nodup (h.imp hne) (h'.imp hne)).2 hmem

/-- **A table is determined by what it holds under each name.** -/
theorem ext_get? {table other : Table V} (h : ∀ name, table.get? name = other.get? name) :
    table = other := by
  have hentries : table.entries = other.entries := by
    refine eq_of_ascending (r := fun entry other => entry.1 < other.1)
      (fun entry => String.lt_irrefl entry.1) (fun _ _ _ => String.lt_trans) table.ascending
      other.ascending fun (name, value) => ?_
    rw [← get?_eq_some_iff, h, get?_eq_some_iff]
  cases table
  cases other
  cases hentries
  rfl

/-- The names of a table are determined by which of them are present. -/
theorem keys_eq {table : Table V} {other : Table W}
    (h : ∀ name, table.contains name = true ↔ other.contains name = true) :
    table.keys = other.keys := by
  refine eq_of_ascending String.lt_irrefl (fun _ _ _ => String.lt_trans) table.keys_ascending
    other.keys_ascending fun name => ?_
  rw [← contains_iff_mem_keys, h, contains_iff_mem_keys]

/-- What a table holds after a list was put into it was in the list or held before. -/
theorem get?_foldl_insert {list : List (String × V)} {table : Table V} {name : String} {value : V}
    (h : (list.foldl (fun table entry => table.insert entry.1 entry.2) table).get? name
      = some value) : (name, value) ∈ list ∨ table.get? name = some value := by
  induction list generalizing table with
  | nil => exact .inr h
  | cons entry rest ih =>
    rcases ih h with h | h
    · exact .inl (List.mem_cons_of_mem _ h)
    · rw [get?_insert] at h
      split at h
      · rename_i hname
        rw [← hname, ← Option.some.inj h]
        exact .inl (List.mem_cons_self ..)
      · exact .inr h

/-- Whatever a table made of a list holds was in the list. -/
theorem mem_of_get?_ofList {list : List (String × V)} {name : String} {value : V}
    (h : (ofList list).get? name = some value) : (name, value) ∈ list := by
  rcases get?_foldl_insert h with h | h
  · exact h
  · cases h

/-- Changing the values of a list of entries changes what is found under each name. -/
theorem find?_map (f : V → W) (list : List (String × V)) (name : String) :
    find? name (list.map fun entry => (entry.1, f entry.2)) = (find? name list).map f := by
  induction list with
  | nil => rfl
  | cons entry rest ih =>
    simp only [List.map_cons, find?]
    split
    · rfl
    · exact ih

/-- Changing the values changes what is held under each name. -/
theorem get?_map (f : V → W) (table : Table V) (name : String) :
    (table.map f).get? name = (table.get? name).map f :=
  find?_map f table.entries name

/-- Changing the values of a table made of a list is changing those of the list. -/
theorem map_ofList (f : V → W) (list : List (String × V)) :
    (ofList list).map f = ofList (list.map fun entry => (entry.1, f entry.2)) := by
  have hinsert (table : Table V) (name : String) (value : V) :
      (table.insert name value).map f = (table.map f).insert name (f value) := by
    refine ext_get? fun other => ?_
    rw [get?_map, get?_insert, get?_insert, get?_map]
    split <;> rfl
  suffices h : ∀ table : Table V,
      (list.foldl (fun table entry => table.insert entry.1 entry.2) table).map f
        = (list.map fun entry => (entry.1, f entry.2)).foldl
          (fun table entry => table.insert entry.1 entry.2) (table.map f) from h empty
  induction list with
  | nil => exact fun table => rfl
  | cons entry rest ih =>
    intro table
    rw [List.foldl_cons, ih, hinsert]
    rfl

/-- A value under a name behind all others is placed at the end. -/
theorem place_of_last (name : String) (value : V) {list : List (String × V)}
    (h : ∀ entry ∈ list, entry.1 < name) : place name value list = list ++ [(name, value)] := by
  induction list with
  | nil => rfl
  | cons head rest ih =>
    have hhead : head.1 < name := h head (List.mem_cons_self ..)
    rw [place, if_neg (String.lt_asymm hhead), if_neg (fun heq => String.lt_irrefl _ (heq ▸ hhead)),
      ih fun entry hentry => h entry (List.mem_cons_of_mem _ hentry), List.cons_append]

/-- Entries that ascend behind those of a table are put into it as they are. -/
theorem entries_foldl_insert {rest : List (String × V)} {table : Table V}
    (h : (table.entries ++ rest).Pairwise fun a b => a.1 < b.1) :
    (rest.foldl (fun table entry => table.insert entry.1 entry.2) table).entries
      = table.entries ++ rest := by
  induction rest generalizing table with
  | nil => exact (List.append_nil _).symm
  | cons entry rest ih =>
    obtain ⟨-, -, hlast⟩ := List.pairwise_append.1 h
    have hinsert : (table.insert entry.1 entry.2).entries = table.entries ++ [entry] :=
      place_of_last entry.1 entry.2 fun other hother => hlast other hother _ (List.mem_cons_self ..)
    rw [List.foldl_cons, ih (by rwa [hinsert, List.append_assoc]), hinsert, List.append_assoc]
    rfl

/-- **A list that ascends is put into a table as it is.** -/
theorem entries_ofList {list : List (String × V)} (h : list.Pairwise fun a b => a.1 < b.1) :
    (ofList list).entries = list :=
  entries_foldl_insert h

/-- **A table is made of its own entries.** -/
theorem ofList_entries (table : Table V) : ofList table.entries = table := by
  have hentries : (ofList table.entries).entries = table.entries :=
    entries_ofList table.ascending
  cases h : ofList table.entries
  cases table
  rw [h] at hentries
  cases hentries
  rfl

/-- Keeping some entries keeps what satisfies the condition. -/
theorem get?_filter_eq_some_iff (keep : String → V → Bool) (table : Table V) (name : String)
    (value : V) : (table.filter keep).get? name = some value
      ↔ table.get? name = some value ∧ keep name value = true := by
  rw [get?_eq_some_iff, get?_eq_some_iff]
  exact List.mem_filter

end Table

end Rulebook
