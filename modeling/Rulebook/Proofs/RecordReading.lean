import Rulebook.Document.Source
import Mathlib.Data.List.Nodup

/-!
# What is read of a record, field by field

A record is read value by value, in the order in which the values come. What the result holds is
said field by field instead, and this is possible when the fields are **parts** of the record: what
was stored in one can be taken out again, and storing it leaves the others as they are (`Layout`).

Whoever has a record that was read then knows of each part that it holds what was read from the
value given for it, or what the record had at the start if none was given
(`Layout.of_readRecord_named`, `Layout.of_readRecord_listed`). In the other direction a record is
read when each value that is given can be read, and it is the one whose parts hold these
(`Layout.readRecord_named`, `Layout.readRecord_listed`). What is given under other names takes no
part in any of this.
-/

namespace Rulebook.Document

variable {σ ρ α β : Type}

/-! ## What a reading yields -/

/-- **A reading yields a value** when it is not refused with some number of references before it. -/
def Reading.Yields (reading : Reading α) (value : α) : Prop :=
  ∃ before after, reading.run before = .ok (value, after)

namespace Reading.Yields

theorem of_value {reading : Reading α} {value : α} (h : reading.value = .ok value) :
    reading.Yields value := by
  rw [Reading.value] at h
  cases hrun : reading.run 0 with
  | error fault => rw [hrun] at h; cases h
  | ok outcome =>
    rw [hrun] at h
    cases h
    exact ⟨0, outcome.2, hrun⟩

@[simp] theorem pure_iff {value other : α} : Yields (pure value) other ↔ value = other := by
  constructor
  · rintro ⟨_, _, h⟩
    cases h
    rfl
  · rintro rfl
    exact ⟨0, 0, rfl⟩

@[simp] theorem not_throw (fault : Fault) (value : α) : ¬ Yields (throw fault) value := by
  rintro ⟨_, _, h⟩
  cases h

@[simp] theorem not_refuse (cause : Cause) (value : α) : ¬ Yields (refuse cause) value :=
  not_throw _ value

/-- **Two readings one after the other yield what the second does behind the first.** -/
theorem of_bind {reading : Reading α} {next : α → Reading β} {result : β}
    (h : Yields (reading >>= next) result) :
    ∃ value, reading.Yields value ∧ (next value).Yields result := by
  obtain ⟨before, after, h⟩ := h
  rw [StateT.run_bind] at h
  cases hrun : reading.run before with
  | error fault => rw [hrun] at h; cases h
  | ok outcome =>
    rw [hrun] at h
    exact ⟨outcome.1, ⟨before, outcome.2, hrun⟩, ⟨outcome.2, after, h⟩⟩

theorem of_map {reading : Reading α} {f : α → β} {result : β} (h : Yields (f <$> reading) result) :
    ∃ value, reading.Yields value ∧ f value = result := by
  rw [map_eq_pure_bind] at h
  obtain ⟨value, hvalue, h⟩ := of_bind h
  exact ⟨value, hvalue, pure_iff.1 h⟩

/-- What is read one after the other is read each by itself. -/
theorem of_mapM {read : σ → Reading α} {parts : List σ} {values : List α}
    (h : Yields (parts.mapM read) values) : ∀ part ∈ parts, ∃ value, (read part).Yields value := by
  induction parts generalizing values with
  | nil => exact fun _ hpart => nomatch hpart
  | cons part rest ih =>
    rw [List.mapM_cons] at h
    obtain ⟨value, hvalue, h⟩ := h.of_bind
    obtain ⟨more, hmore, -⟩ := h.of_bind
    exact List.forall_mem_cons.2 ⟨⟨value, hvalue⟩, ih hmore⟩

/-- Giving a refusal a place lets nothing through. -/
theorem of_atPlace {place : Place} {reading : Reading α} {value : α}
    (h : Yields (atPlace place reading) value) : reading.Yields value := by
  obtain ⟨before, after, h⟩ := h
  have hcatch : (atPlace place reading).run before
      = (reading.run before).tryCatch fun fault => .error (fault.placedAt place) := rfl
  rw [hcatch] at h
  cases hrun : reading.run before with
  | error fault => rw [hrun] at h; cases h
  | ok outcome =>
    rw [hrun] at h
    cases h
    exact ⟨before, after, hrun⟩

end Reading.Yields

/-! ## Parts of a record -/

/-- **A part of a record**: a field whose value can be taken out of the record again. -/
structure Part (σ ρ : Type) where
  /-- What kind of value it holds. -/
  Kind : Type
  /-- The key of the field. -/
  name : String
  /-- Whether the record cannot do without it. -/
  needed : Bool
  /-- Reads the value. -/
  read : σ → Reading Kind
  /-- Stores the value. -/
  set : Kind → ρ → ρ
  /-- The value that is stored. -/
  get : ρ → Kind

/-- The field of a part. -/
def Part.field (part : Part σ ρ) : Field σ ρ :=
  ⟨part.name, part.needed, fun value => part.set <$> part.read value⟩

/-- **A part holds what was read for it**, or what was there before if nothing was given. -/
def Part.Holds (part : Part σ ρ) (given : Option σ) (start result : ρ) : Prop :=
  match given with
  | none => part.get result = part.get start
  | some value => (part.read value).Yields (part.get result)

/-- **A part can be read**, if it must, and holds then what it holds in the result. -/
def Part.Readable (part : Part σ ρ) (given : Option σ) (start result : ρ) : Prop :=
  match given with
  | none => part.needed = false ∧ part.get result = part.get start
  | some value => part.read value = pure (part.get result)

/-- A value that is read is stored. -/
theorem Part.store_of_readable {part : Part σ ρ} {value : σ} {start result : ρ}
    (h : part.Readable (some value) start result) :
    part.field.store value = pure (part.set (part.get result)) := by
  show part.set <$> part.read value = _
  rw [h, map_pure]

/-- A part holds nothing else than what can be read for it. -/
theorem Part.Readable.get_eq {part : Part σ ρ} {given : Option σ} {start result record : ρ}
    (h : part.Readable given start result) (hholds : part.Holds given start record) :
    part.get record = part.get result := by
  cases given with
  | none => exact Eq.trans hholds h.2.symm
  | some value =>
    rw [Part.Holds, h] at hholds
    exact (Reading.Yields.pure_iff.1 hholds).symm

/-- **Parts that make up a record**, each on its own. -/
structure Layout (parts : List (Part σ ρ)) : Prop where
  /-- No name is that of two parts. -/
  names : (parts.map (·.name)).Nodup
  /-- What was stored is there. -/
  get_set : ∀ part ∈ parts, ∀ value record, part.get (part.set value record) = value
  /-- What is stored elsewhere changes nothing. -/
  get_set_of_ne : ∀ part ∈ parts, ∀ other ∈ parts, part.name ≠ other.name →
    ∀ value record, part.get (other.set value record) = part.get record
  /-- There is nothing but the parts. -/
  ext : ∀ record other, (∀ part ∈ parts, part.get record = part.get other) → record = other

/-- What a part holds depends on nothing else of the record before it. -/
theorem Part.Holds.of_eq {part : Part σ ρ} {given : Option σ} {record start result : ρ}
    (h : part.Holds given record result) (heq : part.get record = part.get start) :
    part.Holds given start result := by
  cases given with
  | none => exact Eq.trans h heq
  | some value => exact h

/-- A part is known by its name. -/
theorem Layout.eq_of_name {parts : List (Part σ ρ)} (hlayout : Layout parts) {part other : Part σ ρ}
    (hpart : part ∈ parts) (hother : other ∈ parts) (h : part.name = other.name) : part = other :=
  List.inj_on_of_nodup_map hlayout.names hpart hother h

/-- Storing in a part what it holds already changes nothing. -/
theorem Layout.set_get {parts : List (Part σ ρ)} (hlayout : Layout parts) {part : Part σ ρ}
    (hpart : part ∈ parts) (record : ρ) : part.set (part.get record) record = record := by
  refine hlayout.ext _ _ fun other hother => ?_
  by_cases hname : other.name = part.name
  · obtain rfl := hlayout.eq_of_name hother hpart hname
    exact hlayout.get_set other hother _ record
  · exact hlayout.get_set_of_ne other hother part hpart hname _ record

/-- **No known name is given twice.** -/
def Once (known : List String) (entries : List (String × σ)) : Prop :=
  entries.Pairwise fun entry later => entry.1 = later.1 → entry.1 ∉ known

/-- What is given under a known name is the one thing that is found there. -/
theorem Once.find? {known : List String} {entries : List (String × σ)} (honce : Once known entries)
    {entry : String × σ} (hentry : entry ∈ entries) (hknown : entry.1 ∈ known) :
    Table.find? entry.1 entries = some entry.2 := by
  induction entries with
  | nil => cases hentry
  | cons first rest ih =>
    obtain ⟨hfirst, hrest⟩ := List.pairwise_cons.1 honce
    rw [Table.find?]
    rcases List.mem_cons.1 hentry with rfl | hentry
    · rw [if_pos rfl]
    · have hne : first.1 ≠ entry.1 := fun h => hfirst entry hentry h (h ▸ hknown)
      rw [if_neg hne]
      exact ih hrest hentry

/-- What is found under a name is the first of what is given under it. -/
theorem find?_eq_filter (name : String) (entries : List (String × σ)) :
    Table.find? name entries = ((entries.filter (·.1 == name)).head?).map (·.2) := by
  induction entries with
  | nil => rfl
  | cons entry rest ih =>
    rw [Table.find?, List.filter_cons]
    by_cases h : entry.1 = name
    · simp [h]
    · simp [h, ih]

/-- No known name is given twice when one can count what is given under each. -/
theorem Once.of_filter {known : List String} {entries : List (String × σ)}
    (h : ∀ name ∈ known, (entries.filter (·.1 == name)).length ≤ 1) : Once known entries := by
  induction entries with
  | nil => exact .nil
  | cons entry rest ih =>
    refine List.pairwise_cons.2 ⟨fun later hlater heq hknown => ?_, ih fun name hname => ?_⟩
    · have hmem : later ∈ rest.filter (·.1 == entry.1) :=
        List.mem_filter.2 ⟨hlater, beq_iff_eq.2 heq.symm⟩
      have hpos := List.length_pos_of_mem hmem
      have hle := h entry.1 hknown
      rw [List.filter_cons, if_pos (beq_self_eq_true _), List.length_cons] at hle
      omega
    · have hle := h name hname
      rw [List.filter_cons] at hle
      split at hle
      · rw [List.length_cons] at hle
        omega
      · exact hle

section Records

variable {parts : List (Part σ ρ)} {start result : ρ}

/-! ## Records that are given as lists -/

section Listed

variable {expected : String} {items rest : List σ} {index : Nat} {record : ρ}

/-- What is known of a part behind the items of a list. The parts in `done` come before those for
which there are items left. -/
theorem Layout.of_readListed (done : List (Part σ ρ)) {left : List (Part σ ρ)}
    (hlayout : Layout (done ++ left))
    (h : (readListed expected none (left.map Part.field) index items record).Yields
      (rest, result)) :
    (∀ part ∈ done, part.get result = part.get record)
      ∧ ∀ (position : Nat) (part : Part σ ρ), left[position]? = some part →
        (items[position]? = none → part.needed = false)
          ∧ part.Holds items[position]? record result := by
  induction left generalizing done items index record with
  | nil =>
    rw [List.map_nil, readListed.eq_def] at h
    cases Reading.Yields.pure_iff.1 h
    exact ⟨fun _ _ => rfl, fun _ _ h => nomatch h⟩
  | cons part left ih =>
    have hmoved : done ++ part :: left = (done ++ [part]) ++ left := by simp
    cases items with
    | nil =>
      obtain ⟨-, -, h⟩ := Reading.Yields.of_bind h
      have hneeded : part.needed = false := by
        by_contra hneeded
        rw [Bool.not_eq_false] at hneeded
        simp only [Part.field, hneeded, if_true] at h
        obtain ⟨_, hrefused, _⟩ := h.of_bind
        exact Reading.Yields.not_refuse _ _ hrefused
      simp only [Part.field, hneeded] at h
      obtain ⟨hdone, hleft⟩ := ih (done ++ [part]) (hmoved ▸ hlayout) h
      refine ⟨fun other hother => hdone other (List.mem_append_left _ hother), ?_⟩
      rintro (_ | position) other hother
      · cases hother
        exact ⟨fun _ => hneeded, hdone part (by simp)⟩
      · exact hleft position other hother
    | cons item items =>
      obtain ⟨change, hchange, h⟩ := Reading.Yields.of_bind h
      obtain ⟨stored, hstored, rfl⟩ := hchange.of_map
      obtain ⟨hdone, hleft⟩ := ih (done ++ [part]) (hmoved ▸ hlayout) h
      have hmem : part ∈ done ++ part :: left := by simp
      have hnames := hlayout.names
      rw [List.map_append, List.map_cons] at hnames
      obtain ⟨-, hcons, hapart⟩ := List.nodup_append.1 hnames
      refine ⟨fun other hother => ?_, ?_⟩
      · have hne : other.name ≠ part.name :=
          hapart _ (List.mem_map_of_mem hother) _ (List.mem_cons_self ..)
        exact (hdone other (List.mem_append_left _ hother)).trans
          (hlayout.get_set_of_ne other (List.mem_append_left _ hother) part hmem hne stored record)
      · rintro (_ | position) other hother
        · cases hother
          have hget : part.get result = stored :=
            (hdone part (by simp)).trans (hlayout.get_set part hmem stored record)
          refine ⟨by simp, ?_⟩
          rw [List.getElem?_cons_zero, Part.Holds, hget]
          exact hstored
        · have hother' : other ∈ left := List.mem_of_getElem? hother
          have hne : other.name ≠ part.name := fun h =>
            (List.nodup_cons.1 hcons).1 (h ▸ List.mem_map_of_mem hother')
          obtain ⟨hneeded, hholds⟩ := hleft position other hother
          exact ⟨hneeded, hholds.of_eq
            (hlayout.get_set_of_ne other (by simp [hother']) part hmem hne stored record)⟩

/-- What is left of a list is what is behind the fields. -/
theorem rest_of_readListed {fields : List (Field σ ρ)}
    (h : (readListed expected none fields index items record).Yields (rest, result)) :
    rest = items.drop fields.length := by
  induction fields generalizing items index record with
  | nil =>
    rw [readListed.eq_def] at h
    cases Reading.Yields.pure_iff.1 h
    rfl
  | cons field fields ih =>
    cases items with
    | nil =>
      obtain ⟨-, -, h⟩ := Reading.Yields.of_bind h
      split at h
      · obtain ⟨_, hrefused, -⟩ := h.of_bind
        exact absurd hrefused (Reading.Yields.not_refuse _ _)
      · rw [ih h, List.drop_nil, List.drop_nil]
    | cons item items =>
      obtain ⟨_, -, h⟩ := Reading.Yields.of_bind h
      exact ih h

/-- Items are read when they can be stored and none that is needed is missing. -/
theorem readListed_eq_pure {fields : List (Field σ ρ)}
    (hstore : ∀ (position : Nat) (field : Field σ ρ), fields[position]? = some field →
      match items[position]? with
      | none => field.needed = false
      | some item => ∃ change, field.store item = pure change) :
    ∃ outcome, readListed expected none fields index items record = pure outcome := by
  induction fields generalizing items index record with
  | nil =>
    refine ⟨(items, record), ?_⟩
    rw [readListed.eq_def]
  | cons field fields ih =>
    have hfirst := hstore 0 field rfl
    have hothers := fun position other => hstore (position + 1) other
    cases items with
    | nil =>
      have hneeded : field.needed = false := hfirst
      obtain ⟨outcome, hread⟩ := @ih [] (index + 1) record hothers
      refine ⟨outcome, ?_⟩
      rw [readListed, hneeded]
      exact hread
    | cons item items =>
      obtain ⟨change, hchange⟩ := hfirst
      obtain ⟨outcome, hread⟩ := @ih items (index + 1) (change record) hothers
      refine ⟨outcome, ?_⟩
      rw [readListed, hchange, pure_bind]
      exact hread

end Listed

/-! ## Records that are given as tables -/

/-- **Whoever reads the entries of a record reads all their keys.** -/
theorem text_of_readNamed [Source σ] {fields : List (Field σ ρ)} {entries : List (σ × σ)}
    {given : List String} {record : ρ} {outcome : List String × ρ}
    (h : (readNamed fields entries given record).Yields outcome) :
    ∀ entry ∈ entries, ∃ name, (Source.text "field identifier" entry.1).Yields name := by
  induction entries generalizing given record with
  | nil => exact fun _ hentry => nomatch hentry
  | cons entry rest ih =>
    obtain ⟨name, hname, h⟩ := Reading.Yields.of_bind h
    refine List.forall_mem_cons.2 ⟨⟨name, hname⟩, ?_⟩
    split at h
    · obtain ⟨_, -, h⟩ := h.of_bind
      exact ih h
    · split at h
      · obtain ⟨_, hrefused, -⟩ := h.of_bind
        exact absurd hrefused (Reading.Yields.not_refuse _ _)
      · obtain ⟨_, -, h⟩ := h.of_bind
        exact ih h

/-! ### One entry -/

section Entry

variable [Source σ] {fields : List (Field σ ρ)} {name : String} {key value : σ}
  {rest : List (σ × σ)} {given : List String} {record : ρ}
  (hkey : Source.text "field identifier" key = pure name)
include hkey

/-- A value under a name that no field has is passed over. -/
theorem readNamed_of_unknown (h : fields.find? (·.name == name) = none) :
    readNamed fields ((key, value) :: rest) given record
      = Source.skip value >>= fun _ => readNamed fields rest given record := by
  rw [readNamed, hkey, pure_bind, h]

/-- The value of a field that was not given before is stored. -/
theorem readNamed_of_known {field : Field σ ρ} (h : fields.find? (·.name == name) = some field)
    (hgiven : name ∉ given) :
    readNamed fields ((key, value) :: rest) given record
      = field.store value >>= fun change =>
          readNamed fields rest (name :: given) (change record) := by
  rw [readNamed, hkey, pure_bind, h]
  simp [hgiven]

/-- A field that was given before is refused. -/
theorem readNamed_of_given {field : Field σ ρ} (h : fields.find? (·.name == name) = some field)
    (hgiven : name ∈ given) :
    readNamed fields ((key, value) :: rest) given record = refuse (.duplicateField name) := by
  rw [readNamed, hkey, pure_bind, h]
  simp only [List.contains_iff_mem.2 hgiven, if_true]
  rfl

end Entry

/-! ### All entries -/

section Named

variable [Source σ] {key : String → σ}
  (hkey : ∀ name, Source.text "field identifier" (key name) = pure name)
include hkey

/-- The entries of a table, as cursors. -/
def keyedBy (key : String → σ) (entries : List (String × σ)) : List (σ × σ) :=
  entries.map fun entry => (key entry.1, entry.2)

omit [Source σ] hkey in
theorem keyedBy_cons (key : String → σ) (name : String) (value : σ) (rest : List (String × σ)) :
    keyedBy key ((name, value) :: rest) = (key name, value) :: keyedBy key rest := rfl

variable {fields : List (Field σ ρ)} {name : String} {given : List String} {record : ρ}

omit [Source σ] hkey in
/-- The field of a name is that of a part with this name. -/
theorem exists_part_of_find? {field : Field σ ρ}
    (h : (parts.map Part.field).find? (·.name == name) = some field) :
    ∃ part ∈ parts, part.field = field ∧ part.name = name := by
  obtain ⟨part, hpart, rfl⟩ := List.mem_map.1 (List.mem_of_find?_eq_some h)
  exact ⟨part, hpart, rfl, by simpa [Part.field] using List.find?_some h⟩

omit [Source σ] hkey in
/-- No part has the name of no field. -/
theorem name_ne_of_find? (h : (parts.map Part.field).find? (·.name == name) = none)
    {part : Part σ ρ} (hpart : part ∈ parts) : part.name ≠ name := by
  rintro rfl
  exact List.find?_eq_none.1 h _ (List.mem_map_of_mem hpart) (beq_self_eq_true _)

omit [Source σ] hkey in
/-- The field of a part is found under its name. -/
theorem Layout.find?_field (hlayout : Layout parts) {part : Part σ ρ} (hpart : part ∈ parts) :
    (parts.map Part.field).find? (·.name == part.name) = some part.field := by
  cases hfind : (parts.map Part.field).find? (·.name == part.name) with
  | none => exact absurd rfl (name_ne_of_find? hfind hpart)
  | some field =>
    obtain ⟨other, hother, rfl, hname⟩ := exists_part_of_find? hfind
    rw [hlayout.eq_of_name hother hpart hname]

/-- What is known of a part behind the entries of a table. `given` are the fields met before. -/
theorem Layout.of_readNamed (hlayout : Layout parts) {entries : List (String × σ)}
    {given' : List String}
    (h : (readNamed (parts.map Part.field) (keyedBy key entries) given record).Yields
      (given', result)) {part : Part σ ρ} (hpart : part ∈ parts) :
    (part.name ∈ given → Table.find? part.name entries = none)
      ∧ (part.name ∈ given' ↔ part.name ∈ given ∨ (Table.find? part.name entries).isSome)
      ∧ part.Holds (Table.find? part.name entries) record result := by
  induction entries generalizing given record with
  | nil =>
    cases Reading.Yields.pure_iff.1 h
    exact ⟨fun _ => rfl, by simp [Table.find?], rfl⟩
  | cons entry rest ih =>
    obtain ⟨name, value⟩ := entry
    rw [Table.find?]
    cases hfield : (parts.map Part.field).find? (·.name == name) with
    | none =>
      rw [keyedBy_cons, readNamed_of_unknown (hkey name) hfield] at h
      obtain ⟨-, -, h⟩ := h.of_bind
      rw [if_neg (name_ne_of_find? hfield hpart).symm]
      exact ih h
    | some field =>
      obtain ⟨other, hother, rfl, hname⟩ := exists_part_of_find? hfield
      by_cases hgiven : name ∈ given
      · rw [keyedBy_cons, readNamed_of_given (hkey name) hfield hgiven] at h
        exact absurd h (Reading.Yields.not_refuse _ _)
      · rw [keyedBy_cons, readNamed_of_known (hkey name) hfield hgiven] at h
        obtain ⟨change, hchange, h⟩ := h.of_bind
        obtain ⟨stored, hstored, rfl⟩ := hchange.of_map
        obtain ⟨hbefore, hbehind, hholds⟩ := ih h
        by_cases hpartName : name = part.name
        · -- the part is this one, and no entry behind it has its name
          cases hlayout.eq_of_name hother hpart (hname.trans hpartName)
          have hnone : Table.find? part.name rest = none := hbefore (by simp [hpartName])
          rw [hnone] at hholds hbehind
          have hget : part.get result = stored :=
            hholds.trans (hlayout.get_set part hpart stored record)
          rw [if_pos hpartName]
          refine ⟨fun h => absurd (hpartName ▸ h) hgiven, ?_, ?_⟩
          · simpa [hpartName] using hbehind
          · rw [Part.Holds, hget]
            exact hstored
        · have hne : part.name ≠ other.name := fun h => hpartName (hname.symm.trans h.symm)
          rw [if_neg hpartName]
          refine ⟨fun h => hbefore (List.mem_cons_of_mem _ h), ?_, ?_⟩
          · simpa [Ne.symm hpartName] using hbehind
          · exact hholds.of_eq (hlayout.get_set_of_ne part hpart other hother hne stored record)

/-- **What was read gives no field twice.** -/
theorem Layout.once_of_readNamed (hlayout : Layout parts) {entries : List (String × σ)}
    {given' : List String}
    (h : (readNamed (parts.map Part.field) (keyedBy key entries) given record).Yields
      (given', result)) : Once (parts.map (·.name)) entries := by
  induction entries generalizing given record with
  | nil => exact .nil
  | cons entry rest ih =>
    obtain ⟨name, value⟩ := entry
    cases hfield : (parts.map Part.field).find? (·.name == name) with
    | none =>
      rw [keyedBy_cons, readNamed_of_unknown (hkey name) hfield] at h
      obtain ⟨-, -, h⟩ := h.of_bind
      refine List.pairwise_cons.2 ⟨fun _ _ _ hknown => ?_, ih h⟩
      obtain ⟨part, hpart, hname⟩ := List.mem_map.1 hknown
      exact name_ne_of_find? hfield hpart hname
    | some field =>
      obtain ⟨part, hpart, rfl, hname⟩ := exists_part_of_find? hfield
      by_cases hgiven : name ∈ given
      · rw [keyedBy_cons, readNamed_of_given (hkey name) hfield hgiven] at h
        exact absurd h (Reading.Yields.not_refuse _ _)
      · rw [keyedBy_cons, readNamed_of_known (hkey name) hfield hgiven] at h
        obtain ⟨change, -, h⟩ := h.of_bind
        have hnone : Table.find? part.name rest = none :=
          (hlayout.of_readNamed hkey h hpart).1 (hname ▸ List.mem_cons_self ..)
        refine List.pairwise_cons.2 ⟨fun later hlater heq _ => ?_, ih h⟩
        exact Table.find?_ne_none_of_mem hlater (hname.trans heq ▸ hnone)

/-- Entries are read when the values of fields can be stored, the others can be passed over, and no
field is given twice. -/
theorem readNamed_eq_pure {entries : List (String × σ)}
    (hskip : ∀ entry ∈ entries, Source.skip entry.2 = pure ())
    (hstore : ∀ entry ∈ entries, ∀ field ∈ fields, field.name = entry.1 →
      ∃ change, field.store entry.2 = pure change)
    (honce : Once (fields.map (·.name)) entries)
    (hgiven : ∀ entry ∈ entries, entry.1 ∈ given → entry.1 ∉ fields.map (·.name)) :
    ∃ outcome, readNamed fields (keyedBy key entries) given record = pure outcome := by
  induction entries generalizing given record with
  | nil => exact ⟨(given, record), rfl⟩
  | cons entry rest ih =>
    obtain ⟨name, value⟩ := entry
    obtain ⟨hskipped, hskip⟩ := List.forall_mem_cons.1 hskip
    obtain ⟨hstored, hstore⟩ := List.forall_mem_cons.1 hstore
    obtain ⟨hnew, hgiven⟩ := List.forall_mem_cons.1 hgiven
    obtain ⟨hlater, honce⟩ := List.pairwise_cons.1 honce
    cases hfield : fields.find? (·.name == name) with
    | none =>
      rw [keyedBy_cons, readNamed_of_unknown (hkey name) hfield, hskipped, pure_bind]
      exact ih hskip hstore honce hgiven
    | some field =>
      have hmem : field ∈ fields := List.mem_of_find?_eq_some hfield
      have hname : field.name = name := by simpa using List.find?_some hfield
      have hknown : name ∈ fields.map (·.name) := hname ▸ List.mem_map_of_mem hmem
      obtain ⟨change, hchange⟩ := hstored field hmem hname
      rw [keyedBy_cons, readNamed_of_known (hkey name) hfield fun h => hnew h hknown, hchange,
        pure_bind]
      refine ih hskip hstore honce fun later hmember h => ?_
      rcases List.mem_cons.1 h with heq | h
      · exact absurd hknown (hlater later hmember heq.symm)
      · exact hgiven later hmember h

end Named

/-! ## Whole records -/

section Whole

variable [Source σ] {title : String} {cursor : σ} {entries : List (String × σ)} {items : List σ}
  {key : String → σ}

/-- **What a record holds that was read from a table**: each part what was given for it, and no part
was given twice, or what was there at the start. -/
theorem Layout.of_readRecord_named (hlayout : Layout parts)
    (hkey : ∀ name, Source.text "field identifier" (key name) = pure name)
    (hwithin : ∀ (reading : Reading ρ) (value : ρ),
      (Source.within cursor reading).Yields value → reading.Yields value)
    (hfields : Source.fields title cursor = pure (.named ⟨keyedBy key entries, none⟩))
    (h : (readRecord title start (parts.map Part.field) cursor).Yields result) :
    Once (parts.map (·.name)) entries
      ∧ ∀ part ∈ parts, (Table.find? part.name entries = none → part.needed = false)
        ∧ part.Holds (Table.find? part.name entries) start result := by
  replace h := hwithin _ _ h
  rw [hfields, pure_bind] at h
  obtain ⟨⟨given, record⟩, hread, h⟩ := h.of_bind
  obtain ⟨_, -, h⟩ := h.of_bind
  cases hmissing : (parts.map Part.field).find? fun field =>
      field.needed && !given.contains field.name with
  | some field =>
    rw [hmissing] at h
    exact absurd h (Reading.Yields.not_refuse _ _)
  | none =>
    rw [hmissing] at h
    cases Reading.Yields.pure_iff.1 h
    refine ⟨hlayout.once_of_readNamed hkey hread, fun part hpart => ?_⟩
    obtain ⟨-, hgiven, hholds⟩ := hlayout.of_readNamed hkey hread hpart
    refine ⟨fun hnone => ?_, hholds⟩
    have hnot := List.find?_eq_none.1 hmissing _ (List.mem_map_of_mem hpart)
    have hunmet : part.name ∉ given := by simpa [hnone] using hgiven
    simpa [Part.field, hunmet] using hnot

/-- **What a record holds that was read from a list**: each part what was given at its position, or
what was there at the start. -/
theorem Layout.of_readRecord_listed (hlayout : Layout parts)
    (hwithin : ∀ (reading : Reading ρ) (value : ρ),
      (Source.within cursor reading).Yields value → reading.Yields value)
    (hfields : Source.fields title cursor = pure (.listed ⟨items, none⟩))
    (h : (readRecord title start (parts.map Part.field) cursor).Yields result)
    {position : Nat} {part : Part σ ρ} (hpart : parts[position]? = some part) :
    (items[position]? = none → part.needed = false) ∧ part.Holds items[position]? start result := by
  replace h := hwithin _ _ h
  rw [hfields, pure_bind] at h
  obtain ⟨⟨rest, record⟩, hread, h⟩ := h.of_bind
  obtain ⟨_, -, h⟩ := h.of_bind
  cases Reading.Yields.pure_iff.1 h
  exact (hlayout.of_readListed [] hread).2 position part hpart

/-- What a list has behind the fields of a record is its surplus. -/
theorem surplus_of_readRecord_listed
    (hwithin : ∀ (reading : Reading ρ) (value : ρ),
      (Source.within cursor reading).Yields value → reading.Yields value)
    (hfields : Source.fields title cursor = pure (.listed ⟨items, none⟩))
    (h : (readRecord title start (parts.map Part.field) cursor).Yields result) :
    (Source.surplus parts.length ⟨items.drop parts.length, none⟩).Yields () := by
  replace h := hwithin _ _ h
  rw [hfields, pure_bind] at h
  obtain ⟨⟨rest, record⟩, hread, h⟩ := h.of_bind
  obtain ⟨_, hsurplus, -⟩ := h.of_bind
  rw [rest_of_readListed hread, List.length_map] at hsurplus
  exact hsurplus

/-- **A record is read from a table** that gives no field twice, when what it gives for each part
can be read and none that is needed is missing. -/
theorem Layout.readRecord_named (hlayout : Layout parts)
    (hkey : ∀ name, Source.text "field identifier" (key name) = pure name)
    (hwithin : ∀ value : ρ, Source.within cursor (pure value) = pure value)
    (hfields : Source.fields title cursor = pure (.named ⟨keyedBy key entries, none⟩))
    (hskip : ∀ entry ∈ entries, Source.skip entry.2 = pure ())
    (honce : Once (parts.map (·.name)) entries)
    (hread : ∀ part ∈ parts, part.Readable (Table.find? part.name entries) start result) :
    readRecord title start (parts.map Part.field) cursor = pure result := by
  obtain ⟨⟨given, record⟩, hnamed⟩ : ∃ outcome,
      readNamed (parts.map Part.field) (keyedBy key entries) [] start = pure outcome := by
    have hnames : (parts.map Part.field).map (·.name) = parts.map (·.name) := by
      simp [Part.field, Function.comp_def]
    refine readNamed_eq_pure hkey hskip (fun entry hentry field hfield hname => ?_)
      (hnames.symm ▸ honce) fun _ _ h => nomatch h
    obtain ⟨part, hpart, rfl⟩ := List.mem_map.1 hfield
    have hknown : entry.1 ∈ parts.map (·.name) := hname ▸ List.mem_map_of_mem hpart
    have hvalue := hread part hpart
    rw [show part.name = entry.1 from hname, honce.find? hentry hknown] at hvalue
    exact ⟨_, Part.store_of_readable hvalue⟩
  have hyields : (readNamed (parts.map Part.field) (keyedBy key entries) [] start).Yields
      (given, record) := by
    rw [hnamed, Reading.Yields.pure_iff]
  have hrecord : record = result := by
    refine hlayout.ext _ _ fun part hpart => ?_
    exact (hread part hpart).get_eq (hlayout.of_readNamed hkey hyields hpart).2.2
  have hmissing : ((parts.map Part.field).find? fun field =>
      field.needed && !given.contains field.name) = none := by
    refine List.find?_eq_none.2 (List.forall_mem_map.2 fun part hpart => ?_)
    have hgiven := (hlayout.of_readNamed hkey hyields hpart).2.1
    have hvalue := hread part hpart
    cases hfind : Table.find? part.name entries with
    | none =>
      rw [hfind] at hvalue
      simp [Part.field, hvalue.1]
    | some value =>
      rw [hfind] at hgiven
      simp [Part.field, hgiven.2 (.inr rfl)]
  rw [readRecord, hfields, pure_bind]
  dsimp only
  rw [hnamed, pure_bind]
  dsimp only
  rw [hmissing, hrecord]
  exact hwithin result

/-- **A record is read from a list** when what it gives for each part can be read and none that is
needed is missing. -/
theorem Layout.readRecord_listed (hlayout : Layout parts)
    (hwithin : ∀ value : ρ, Source.within cursor (pure value) = pure value)
    (hfields : Source.fields title cursor = pure (.listed ⟨items, none⟩))
    (hsurplus : Source.surplus parts.length ⟨items.drop parts.length, none⟩ = pure ())
    (hread : ∀ (position : Nat) (part : Part σ ρ), parts[position]? = some part →
      part.Readable items[position]? start result) :
    readRecord title start (parts.map Part.field) cursor = pure result := by
  have hcount : (parts.map Part.field).length = parts.length := List.length_map _
  obtain ⟨⟨rest, record⟩, hlisted⟩ : ∃ outcome,
      readListed (elementsText title parts.length) none (parts.map Part.field) 0 items start
        = pure outcome := by
    refine readListed_eq_pure fun position field hfield => ?_
    rw [List.getElem?_map] at hfield
    obtain ⟨part, hpart, rfl⟩ := Option.map_eq_some_iff.1 hfield
    have hvalue := hread position part hpart
    cases hitem : items[position]? with
    | none =>
      rw [hitem] at hvalue
      exact hvalue.1
    | some item =>
      rw [hitem] at hvalue
      exact ⟨_, Part.store_of_readable hvalue⟩
  have hyields : (readListed (elementsText title parts.length) none (parts.map Part.field) 0
      items start).Yields (rest, record) := by
    rw [hlisted, Reading.Yields.pure_iff]
  have hrest : rest = items.drop parts.length := hcount ▸ rest_of_readListed hyields
  have hrecord : record = result := by
    refine hlayout.ext _ _ fun part hpart => ?_
    obtain ⟨position, hposition⟩ := List.getElem?_of_mem hpart
    exact (hread position part hposition).get_eq
      ((hlayout.of_readListed [] hyields).2 position part hposition).2
  rw [readRecord, hfields, pure_bind]
  dsimp only
  rw [hcount, hlisted, pure_bind]
  dsimp only
  rw [hrest, hsurplus, pure_bind, hrecord]
  exact hwithin result

end Whole

end Records

end Rulebook.Document
