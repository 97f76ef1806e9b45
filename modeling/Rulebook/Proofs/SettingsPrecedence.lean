import Rulebook.Files.Build
import Rulebook.Proofs.LayeredSettings
import Rulebook.Proofs.SettingsNames
import Rulebook.Proofs.Tree
import Rulebook.Proofs.Utf8

/-!
# Which layer a setting comes from

A setting comes from its own layer, whatever is set beside it: from a variable that sets it, or else
from the file, or else it has its default (`OwnLayer`). Where a section is a table in each layer, if
it is there at all, this is read off what the two give (`given?_of_tables`); and as the environment
has at a place what one of its variables sets there, it can be said variable by variable.

A section that is a list is different. It is read by position, and it is laid over a table as a
whole, so that nothing below it shows through; nor does a list show through a table above it. In
`settings_not_layered` a variable that sets a section to the empty list resets what a file sets in
it.

A further variable is laid over the others and changes nothing at places that do not meet its own
(`given?_append`). So it leaves other settings as they are, and all of them if it sets nothing
known; nor does it change which file is read. All of this together is `Loader.settings_layered`.
-/

namespace Rulebook.Settings

open Environment (place? Sets Once)

/-! ## Sections that are no lists -/

/-- A value that is no list has its parts by their names only. -/
theorem Value.part?_of_ne_list {value : Value} (h : ∀ items, value ≠ .list items) (name : String)
    (position : Nat) : value.part? name position = value.get? name := by
  cases value with
  | list items => exact absurd rfl (h items)
  | _ => rfl

/-- A list is no table. -/
theorem Value.not_isTable_list (items : List Value) : ¬ (Value.list items).IsTable := by
  rintro ⟨_, h⟩
  cases h

/-- What stands two keys down. -/
theorem Value.under_pair (value : Value) (sect name : String) :
    value.under [sect, name] = (value.get? sect).bind (·.get? name) := by
  simp [Value.under]

section Given

variable {upper lower lower' : Value} {sect : String}

/-- A setting of a section that is no list is found by its name. -/
theorem bind_part?_of_ne_list (hlower : ∀ items, lower.get? sect ≠ some (.list items))
    (name : String) (position : Nat) :
    (lower.get? sect).bind (·.part? name position) = lower.under [sect, name] := by
  rw [Value.under_pair]
  cases hbelow : lower.get? sect with
  | none => rfl
  | some below =>
    exact Value.part?_of_ne_list (fun items h => hlower items (h ▸ hbelow)) name position

/-- **Where a section is no list below**, the upper layer has the say in what it sets, and the lower
one in everything else, provided that the upper one has a table there if anything. -/
theorem given?_of_tables (hupper : ∀ value, upper.get? sect = some value → value.IsTable)
    (hlower : ∀ items, lower.get? sect ≠ some (.list items)) (name : String) (position : Nat) :
    given? upper lower sect name position
      = (upper.under [sect, name]).or (lower.under [sect, name]) := by
  rw [← bind_part?_of_ne_list hlower name position, given?, Value.under_pair]
  cases habove : upper.get? sect with
  | none => rfl
  | some above =>
    obtain ⟨entries, rfl⟩ := hupper above habove
    cases hbelow : lower.get? sect with
    | none => exact Option.or_none.symm
    | some below =>
      cases below with
      | table entries' => rfl
      | list items => exact absurd hbelow (hlower items)
      | _ => exact Option.or_none.symm

/-- What is no table above has the whole say. -/
theorem given?_of_not_table {above : Value} (habove : upper.get? sect = some above)
    (hnot : ¬ above.IsTable) (name : String) (position : Nat) :
    given? upper lower sect name position = above.part? name position := by
  rw [given?, habove]
  cases above with
  | table entries => exact absurd ⟨entries, rfl⟩ hnot
  | _ => rfl

/-- Where a section is no list below, what is given for a setting of it depends on nothing below but
what that sets for it. -/
theorem given?_congr_lower (hlower : ∀ items, lower.get? sect ≠ some (.list items))
    (hlower' : ∀ items, lower'.get? sect ≠ some (.list items)) {name : String}
    (h : lower.under [sect, name] = lower'.under [sect, name]) (position : Nat) :
    given? upper lower sect name position = given? upper lower' sect name position := by
  by_cases htable : ∀ value, upper.get? sect = some value → value.IsTable
  · rw [given?_of_tables htable hlower, given?_of_tables htable hlower', h]
  · push Not at htable
    obtain ⟨above, habove, hnot⟩ := htable
    rw [given?_of_not_table habove hnot, given?_of_not_table habove hnot]

end Given

/-! ## One variable more -/

section Append

variable {start name written : String} {environment : List (String × String)} {key : String}
  {keys : List String}

/-- A further variable is laid over the ones before. -/
theorem Environment.values_append {place : List String} (hplace : place? start name = some place) :
    values start (environment ++ [(name, written)])
      = (Value.nested place (valueOf written)).laidOver (values start environment) := by
  have hsetting : setting? start (name, written) = some (.nested place (valueOf written)) := by
    rw [setting?, hplace, Option.map_some]
  rw [values_eq, values_eq, List.filterMap_append, List.filterMap_cons, hsetting,
    List.filterMap_nil, Value.layered_append]

/-- What the environment has under a key, with a variable more. -/
theorem Environment.get?_values_append (hplace : place? start name = some (key :: keys))
    (sect : String) :
    (values start (environment ++ [(name, written)])).get? sect
      = Value.laidOver? (if key = sect then some (.nested keys (valueOf written)) else none)
          ((values start environment).get? sect) := by
  obtain ⟨-, below, hbelow⟩ := sound_values start environment
  rw [values_append hplace, hbelow, Value.nested, Value.get?_laidOver]
  · rfl
  · exact ascending_nested (ascending_valueOf written) (key :: keys)

/-- Where a variable sets something further down, the others have a table or nothing. -/
theorem Environment.isTable_get?_values {field : String} {fields : List String}
    (hplace : place? start name = some (key :: field :: fields))
    (honce : Once start (environment ++ [(name, written)])) {value : Value}
    (hvalue : (values start environment).get? key = some value) : value.IsTable := by
  have hsetting : setting? start (name, written)
      = some (.nested (key :: field :: fields) (valueOf written)) := by
    rw [setting?, hplace, Option.map_some]
  rw [Once, List.filterMap_append, List.filterMap_cons, hsetting, List.filterMap_nil] at honce
  obtain ⟨hbefore, -, hlast⟩ := List.pairwise_append.1 honce
  have hapart : (Value.nested (key :: field :: fields) (valueOf written)).Apart
      (Value.layered (environment.filterMap (setting? start))) :=
    Value.apart_layered sound_setting? hbefore ⟨_, rfl⟩ fun other hother =>
      hlast other hother _ (List.mem_singleton_self _)
  rw [← values_eq] at hapart
  refine (hapart [key] (.nested (field :: fields) (valueOf written)) value ?_ ?_).2
  · simp [Value.nested, Value.under, Value.get?, Table.find?]
  · simp [Value.under, hvalue]

/-- A table with one key is laid over a table without changing what that has under other keys. -/
theorem laidOver?_other {below : Option Value} {inner field : String} {rest : List String}
    {part : Value} (hbelow : ∀ value, below = some value → value.IsTable) (hinner : inner ≠ field) :
    (∀ value, Value.laidOver? (some (.nested (inner :: rest) part)) below = some value →
        value.IsTable)
      ∧ (Value.laidOver? (some (.nested (inner :: rest) part)) below).bind (·.get? field)
        = below.bind (·.get? field) := by
  cases below with
  | none =>
    refine ⟨fun value h => ⟨_, (Option.some.inj h).symm⟩, ?_⟩
    simp [Value.laidOver?, Value.nested, Value.get?, Table.find?, hinner]
  | some below =>
    obtain ⟨entries, rfl⟩ := hbelow below rfl
    rw [Value.laidOver?, Value.nested, Value.laidOver]
    refine ⟨fun value h => ⟨_, (Option.some.inj h).symm⟩, ?_⟩
    rw [Option.bind_some, Value.get?, Value.find?_entriesOver (List.pairwise_singleton ..)]
    simp [Table.find?, hinner, Value.laidOver?, Value.get?]

/-- **Places that do not meet**: neither of them leads through the other. -/
def Elsewhere (place other : List String) : Prop := ¬ place <+: other ∧ ¬ other <+: place

/-- Places one key further down do not meet either. -/
theorem Elsewhere.of_cons {key : String} {place other : List String}
    (h : Elsewhere (key :: place) (key :: other)) : Elsewhere place other :=
  ⟨fun hprefix => h.1 (List.cons_prefix_cons.2 ⟨rfl, hprefix⟩),
    fun hprefix => h.2 (List.cons_prefix_cons.2 ⟨rfl, hprefix⟩)⟩

/-- What stands at places that do not meet sets nothing twice. -/
theorem Elsewhere.apart {place other : List String} (h : Elsewhere place other)
    (value value' : Value) : (Value.nested place value).Apart (.nested other value') := by
  induction place generalizing other with
  | nil => exact absurd List.nil_prefix h.1
  | cons key keys ih =>
    cases other with
    | nil => exact absurd List.nil_prefix h.2
    | cons key' keys' =>
      intro way part part' hpart hpart'
      cases way with
      | nil => exact ⟨⟨_, (Option.some.inj hpart).symm⟩, _, (Option.some.inj hpart').symm⟩
      | cons first rest =>
        rw [Value.nested, Value.under, Value.get?, Table.find?] at hpart hpart'
        by_cases hkey : key = first
        · by_cases hkey' : key' = first
          · subst hkey hkey'
            rw [if_pos rfl, Option.bind_some] at hpart hpart'
            exact ih h.of_cons rest part part' hpart hpart'
          · rw [if_neg hkey'] at hpart'
            cases hpart'
        · rw [if_neg hkey] at hpart
          cases hpart

/-- Variables set nothing twice if the places that they set do not meet. -/
theorem Environment.once_of_elsewhere
    (h : (environment.filterMap fun entry => place? start entry.1).Pairwise Elsewhere) :
    Once start environment := by
  rw [List.pairwise_filterMap] at h
  rw [Once, List.pairwise_filterMap]
  refine h.imp fun {entry other} hplaces value hvalue value' hvalue' => ?_
  obtain ⟨place, hplace, rfl⟩ := Option.map_eq_some_iff.1 hvalue
  obtain ⟨place', hplace', rfl⟩ := Option.map_eq_some_iff.1 hvalue'
  exact (hplaces place hplace place' hplace').apart _ _

/-- **A variable that sets something elsewhere** changes nothing that is given for a setting, unless
it leads into a section that is a list below. -/
theorem given?_append {place : List String} {file : Value}
    (hplace : place? start name = some place)
    (honce : Once start (environment ++ [(name, written)])) {sect field : String}
    (helsewhere : Elsewhere place [sect, field])
    (hfile : [sect] <+: place → ∀ items, file.get? sect ≠ some (.list items)) (position : Nat) :
    given? (Environment.values start (environment ++ [(name, written)])) file sect field position
      = given? (Environment.values start environment) file sect field position := by
  obtain ⟨hover, hunder⟩ := helsewhere
  cases place with
  | nil => exact absurd rfl (Environment.place?_ne_nil hplace)
  | cons key keys =>
    have hget : (Environment.values start (environment ++ [(name, written)])).get? sect = _ :=
      Environment.get?_values_append hplace sect
    by_cases hkey : key = sect
    · subst hkey
      cases keys with
      | nil => exact absurd (List.cons_prefix_cons.2 ⟨rfl, List.nil_prefix⟩) hover
      | cons inner rest =>
        have hinner : inner ≠ field := by
          rintro rfl
          exact hunder ⟨rest, rfl⟩
        have hbelow (value : Value)
            (hvalue : (Environment.values start environment).get? key = some value) :
            value.IsTable := Environment.isTable_get?_values hplace honce hvalue
        obtain ⟨habove, hsame⟩ : (∀ value, (Environment.values start
              (environment ++ [(name, written)])).get? key = some value → value.IsTable)
            ∧ (Environment.values start (environment ++ [(name, written)])).under [key, field]
              = (Environment.values start environment).under [key, field] := by
          rw [Value.under_pair, Value.under_pair, hget, if_pos rfl]
          exact laidOver?_other hbelow hinner
        have hlist := hfile ⟨inner :: rest, rfl⟩
        rw [given?_of_tables habove hlist, given?_of_tables hbelow hlist, hsame]
    · rw [if_neg hkey] at hget
      rw [given?, given?, hget]
      rfl

end Append

/-! ## What is decoded -/

/-- What a setting is decoded to is told by its value. -/
theorem Slot.means_unique {ρ : Type} (slot : Slot ρ) {value : Value}
    {setting other : slot.part.Kind} (h : slot.means value setting)
    (h' : slot.means value other) : setting = other := by
  have hread : slot.part.read ⟨value, []⟩ = pure setting := slot.decodes.complete h
  have hread' : slot.part.read ⟨value, []⟩ = pure other := slot.decodes.complete h'
  have hyields : (pure setting : Document.Reading slot.part.Kind).Yields other := by
    rw [← hread, hread']
    exact Document.Reading.Yields.pure_iff.2 rfl
  exact Document.Reading.Yields.pure_iff.1 hyields

theorem Slot.decoded_unique {ρ : Type} (slot : Slot ρ) {given : Option Value}
    {start setting other : slot.part.Kind} (h : Decoded slot.means given start setting)
    (h' : Decoded slot.means given start other) : setting = other := by
  cases given with
  | none => exact h.trans h'.symm
  | some value => exact slot.means_unique h h'

/-- **A setting comes from its own layer.** -/
structure OwnLayer {α : Type} (start : String) (environment : List (String × String))
    (file : Value) (place : List String) (means : Value → α → Prop) (default setting : α) :
    Prop where
  /-- It is what a variable sets. -/
  of_variable {entry : String × String} {part : Value} (hentry : entry ∈ environment)
    (h : Sets start entry place part) : means part setting
  /-- It is what the file sets, if no variable sets it. -/
  of_file (hnone : ∀ entry ∈ environment, ∀ part, ¬ Sets start entry place part) {part : Value}
    (h : file.under place = some part) : means part setting
  /-- It has its default, if neither sets it. -/
  of_default (hnone : ∀ entry ∈ environment, ∀ part, ¬ Sets start entry place part)
    (h : file.under place = none) : setting = default

/-- What is given by the environment or else by the file comes from its own layer. -/
theorem ownLayer_of_decoded {α : Type} {start : String} {environment : List (String × String)}
    (honce : Once start environment) {file : Value} {place : List String}
    {means : Value → α → Prop} {default setting : α}
    (hleaf : ∀ entries setting, ¬ means (.table entries) setting)
    (h : Decoded means (((Environment.values start environment).under place).or
      (file.under place)) default setting) :
    OwnLayer start environment file place means default setting := by
  -- a table in the environment would be decoded to nothing
  have hvalues (part : Value)
      (hpart : (Environment.values start environment).under place = some part) :
      ¬ part.IsTable ∧ means part setting := by
    rw [hpart] at h
    exact ⟨fun ⟨entries, htable⟩ => hleaf entries setting (htable ▸ h), h⟩
  have hnothing (hnone : ∀ entry ∈ environment, ∀ part, ¬ Sets start entry place part) :
      (Environment.values start environment).under place = none := by
    by_contra hsome
    obtain ⟨part, hpart⟩ := Option.ne_none_iff_exists'.1 hsome
    obtain ⟨entry, hentry, hsets⟩ := (Environment.under_values honce (hvalues part hpart).1).1 hpart
    exact hnone entry hentry part hsets
  constructor
  · intro entry part hentry hsets
    by_cases htable : part.IsTable
    · obtain ⟨part', hpart', htable'⟩ :=
        Environment.isTable_under_values honce hentry hsets htable
      exact absurd htable' (hvalues part' hpart').1
    · exact (hvalues part ((Environment.under_values honce htable).2 ⟨entry, hentry, hsets⟩)).2
  · intro hnone part hpart
    rwa [hnothing hnone, hpart] at h
  · intro hnone hfile
    rwa [hnothing hnone, hfile] at h

/-! ## Loading -/

/-- **What the file sets** that is to be read. -/
def Loader.FileLayer (loader : Loader) (world : Files.World) (environment : List (String × String))
    (file : Value) : Prop :=
  ∃ chosen, loader.Chooses world environment chosen ∧ FileSets world chosen file

/-- **A section that no layer has as a list.** -/
def Unlisted (start : String) (environment : List (String × String)) (file : Value)
    (sect : String) : Prop :=
  (∀ items, file.get? sect ≠ some (.list items))
    ∧ ∀ entry ∈ environment, ∀ items, ¬ Sets start entry [sect] (.list items)

/-- **A place that is not known**: it is no section, and no setting is there or on the way to it. -/
def Unknown (place : List String) : Prop :=
  ∀ sect ∈ sections, place ≠ [sect.name]
    ∧ ∀ field ∈ namesOf sect.slots, ¬ [sect.name, field] <+: place

/-- **What two files set differs in unknown keys only**: a section is the same in both of them, or
else a table or nothing in each, with the same under every known key. -/
def SameKnown (file file' : Value) : Prop :=
  ∀ sect ∈ sections, file.get? sect.name = file'.get? sect.name
    ∨ (∀ value, file.get? sect.name = some value → value.IsTable)
      ∧ (∀ value, file'.get? sect.name = some value → value.IsTable)
      ∧ ∀ field ∈ namesOf sect.slots,
          file.under [sect.name, field] = file'.under [sect.name, field]

theorem SameKnown.symm {file file' : Value} (h : SameKnown file file') : SameKnown file' file :=
  fun sect hsect => (h sect hsect).imp Eq.symm fun ⟨htable, htable', hsame⟩ =>
    ⟨htable', htable, fun field hfield => (hsame field hfield).symm⟩

section Loading

variable {loader : Loader} {world : Files.World} {environment : List (String × String)}
  {names : Resolver} {file : Value} {settings : Settings}

/-- Settings are loaded from a file that is to be read exactly when they can be read from it under
the environment, and can be used. -/
theorem Loader.FileLayer.load_eq_ok_iff (hfile : loader.FileLayer world environment file) :
    loader.load world environment names = .ok settings
      ↔ Readable (Environment.values loader.variableStart environment) file
        ∧ settings.DecodedFrom (given? (Environment.values loader.variableStart environment) file)
        ∧ settings.check names = .ok () := by
  obtain ⟨chosen, hchosen, hsets⟩ := hfile
  rw [Loader.load_eq_ok_iff]
  constructor
  · rintro ⟨chosen', file', hchosen', hsets', h⟩
    obtain rfl := hchosen.unique hchosen'
    obtain rfl := hsets.unique hsets'
    exact h
  · exact fun h => ⟨chosen, file, hchosen, hsets, h⟩

/-- Settings are loaded if they can be used and the layer of the file and that of the environment
are read as them. -/
theorem Loader.FileLayer.load_of_ofLayers (hfile : loader.FileLayer world environment file)
    {origin : Origin}
    (hread : ofLayers [⟨origin, file⟩, loader.environmentLayer environment] = .ok settings)
    (hcheck : settings.check names = .ok ()) :
    loader.load world environment names = .ok settings := by
  obtain ⟨chosen, hchosen, hsets⟩ := hfile
  obtain ⟨hreadable, hdecoded⟩ := (meansLayers_iff (Environment.sound_values _ environment)
    hsets.sound).1 (ofLayers_eq_ok_iff.1 hread)
  exact Loader.load_eq_ok_iff.2
    ⟨chosen, file, hchosen, hsets, hreadable, hdecoded, hcheck⟩

/-- The file stays the same with a variable more. -/
theorem Loader.FileLayer.append (hfile : loader.FileLayer world environment file)
    {name written : String} {place : List String}
    (hplace : place? loader.variableStart name = some place) :
    loader.FileLayer world (environment ++ [(name, written)]) file := by
  obtain ⟨chosen, hchosen, hsets⟩ := hfile
  refine ⟨chosen, filePath_eq_ok_iff.1 ?_, hsets⟩
  rw [filePath_append hplace]
  exact filePath_eq_ok_iff.2 hchosen

/-- A file that is asked for and is none makes loading fail. -/
theorem Loader.load_of_missing {path : String} (h : loader.Asks environment path)
    (hfile : world.isFile path = false) :
    ∃ fault, loader.load world environment names = .error fault := by
  rw [load_eq, filePath, requested_eq_some_iff.2 h]
  dsimp only
  rw [hfile]
  exact ⟨_, rfl⟩

/-- Each setting of a section that is no list comes from its own layer. -/
theorem ownLayer_of_load (honce : Once loader.variableStart environment)
    (hfile : loader.FileLayer world environment file)
    (h : loader.load world environment names = .ok settings) {sect : Section}
    (hsect : sect ∈ sections) (hunlisted : Unlisted loader.variableStart environment file sect.name)
    {slot : Slot sect.Kind} (hslot : slot ∈ sect.slots) :
    OwnLayer loader.variableStart environment file [sect.name, slot.part.name] slot.means
      (slot.part.get (sect.get {})) (slot.part.get (sect.get settings)) := by
  obtain ⟨hreadable, hdecoded, -⟩ := hfile.load_eq_ok_iff.1 h
  obtain ⟨hlist, hvariables⟩ := hunlisted
  have htable (value : Value)
      (hvalue : (Environment.values loader.variableStart environment).get? sect.name = some value) :
      value.IsTable := by
    rcases hreadable sect hsect value (by rw [hvalue, Option.some_or]) with htable | ⟨items, rfl⟩
    · exact htable
    · obtain ⟨entry, hentry, hsets⟩ := (Environment.under_values honce
          (Value.not_isTable_list items)).1
        (show (Environment.values loader.variableStart environment).under [sect.name] = _ by
          simp [Value.under, hvalue])
      exact absurd hsets (hvariables entry hentry items)
  obtain ⟨position, hposition⟩ := List.getElem?_of_mem hslot
  have hhere := hdecoded sect hsect position slot hposition
  rw [given?_of_tables htable hlist] at hhere
  exact ownLayer_of_decoded honce (sect.leaves slot hslot) hhere

/-- A variable that sets something elsewhere leaves a setting as it is. -/
theorem get_eq_of_elsewhere (hfile : loader.FileLayer world environment file)
    {name written : String} {place : List String}
    (hplace : place? loader.variableStart name = some place)
    (honce : Once loader.variableStart (environment ++ [(name, written)])) {settings' : Settings}
    (h : loader.load world environment names = .ok settings)
    (h' : loader.load world (environment ++ [(name, written)]) names = .ok settings')
    {sect : Section} (hsect : sect ∈ sections)
    (hlist : [sect.name] <+: place → ∀ items, file.get? sect.name ≠ some (.list items))
    {slot : Slot sect.Kind} (hslot : slot ∈ sect.slots)
    (helsewhere : Elsewhere place [sect.name, slot.part.name]) :
    slot.part.get (sect.get settings') = slot.part.get (sect.get settings) := by
  obtain ⟨-, hdecoded, -⟩ := hfile.load_eq_ok_iff.1 h
  obtain ⟨-, hdecoded', -⟩ := (hfile.append hplace).load_eq_ok_iff.1 h'
  obtain ⟨position, hposition⟩ := List.getElem?_of_mem hslot
  have hhere := hdecoded' sect hsect position slot hposition
  rw [given?_append hplace honce helsewhere hlist] at hhere
  exact slot.decoded_unique hhere (hdecoded sect hsect position slot hposition)

/-- What stands on the way to a setting is its section, or else the setting itself. -/
theorem eq_of_prefix_pair {place : List String} {sect field : String} (hne : place ≠ [])
    (h : place <+: [sect, field]) : place = [sect] ∨ place = [sect, field] := by
  cases place with
  | nil => exact absurd rfl hne
  | cons key keys =>
    obtain ⟨rfl, hkeys⟩ := List.cons_prefix_cons.1 h
    cases keys with
    | nil => exact .inl rfl
    | cons inner rest =>
      obtain ⟨rfl, hrest⟩ := List.cons_prefix_cons.1 hkeys
      obtain rfl := List.prefix_nil.1 hrest
      exact .inr rfl

/-- What can be read can be read with a variable more, if that sets no section. -/
theorem readable_append {start name written : String} {place : List String}
    (hplace : place? start name = some place) (hne : ∀ sect ∈ sections, place ≠ [sect.name])
    (hreadable : Readable (Environment.values start environment) file) :
    Readable (Environment.values start (environment ++ [(name, written)])) file := by
  intro sect hsect value hvalue
  cases place with
  | nil => exact absurd rfl (Environment.place?_ne_nil hplace)
  | cons key keys =>
    rw [Environment.get?_values_append hplace] at hvalue
    by_cases hkey : key = sect.name
    · cases keys with
      | nil => exact absurd (hkey ▸ rfl) (hne sect hsect)
      | cons inner rest =>
        -- a table is laid over whatever is there
        have htable : (Value.nested (inner :: rest) (Environment.valueOf written)).IsContainer :=
          .inl ⟨_, rfl⟩
        rw [if_pos hkey] at hvalue
        cases hbelow : (Environment.values start environment).get? sect.name with
        | none =>
          rw [hbelow] at hvalue
          obtain rfl := Option.some.inj hvalue
          exact htable
        | some below =>
          rw [hbelow] at hvalue
          obtain rfl := Option.some.inj hvalue
          exact (Value.isContainer_laidOver _ _).2 htable
    · rw [if_neg hkey] at hvalue
      exact hreadable sect hsect value hvalue

/-- A variable that sets nothing known changes nothing. -/
theorem load_append_of_unknown (hfile : loader.FileLayer world environment file)
    {name written : String} {place : List String}
    (hplace : place? loader.variableStart name = some place)
    (honce : Once loader.variableStart (environment ++ [(name, written)]))
    (hunknown : Unknown place)
    (hlist : ∀ sect ∈ sections, [sect.name] <+: place →
      ∀ items, file.get? sect.name ≠ some (.list items))
    (h : loader.load world environment names = .ok settings) :
    loader.load world (environment ++ [(name, written)]) names = .ok settings := by
  obtain ⟨hreadable, hdecoded, hcheck⟩ := hfile.load_eq_ok_iff.1 h
  refine (hfile.append hplace).load_eq_ok_iff.2 ⟨?_, ?_, hcheck⟩
  · exact readable_append hplace (fun sect hsect => (hunknown sect hsect).1) hreadable
  · refine (DecodedFrom.congr fun sect hsect position field hfield => ?_).2 hdecoded
    obtain ⟨hsection, hsettings⟩ := hunknown sect hsect
    have hnot := hsettings field (List.mem_of_getElem? hfield)
    refine given?_append hplace honce ⟨fun hover => ?_, hnot⟩ (hlist sect hsect) position
    rcases eq_of_prefix_pair (Environment.place?_ne_nil hplace) hover with heq | heq
    · exact hsection heq
    · exact hnot (heq ▸ List.prefix_rfl)

/-- A file that differs in unknown keys only is as good. -/
theorem load_of_sameKnown {world' : Files.World} {file' : Value}
    (hfile : loader.FileLayer world environment file)
    (hfile' : loader.FileLayer world' environment file') (hsame : SameKnown file file')
    (h : loader.load world environment names = .ok settings) :
    loader.load world' environment names = .ok settings := by
  obtain ⟨hreadable, hdecoded, hcheck⟩ := hfile.load_eq_ok_iff.1 h
  refine hfile'.load_eq_ok_iff.2 ⟨fun sect hsect value hvalue => ?_, ?_, hcheck⟩
  · rcases hsame sect hsect with heq | ⟨-, htable', -⟩
    · exact hreadable sect hsect value (by rwa [heq])
    · cases habove : (Environment.values loader.variableStart environment).get? sect.name with
      | none =>
        rw [habove, Option.none_or] at hvalue
        exact .inl (htable' value hvalue)
      | some above =>
        rw [habove, Option.some_or] at hvalue
        exact hreadable sect hsect value (by rw [habove, Option.some_or, hvalue])
  · refine (DecodedFrom.congr fun sect hsect position field hfield => ?_).1 hdecoded
    rcases hsame sect hsect with heq | ⟨htable, htable', hknown⟩
    · rw [given?, given?, heq]
    · refine given?_congr_lower ?_ ?_ (hknown field (List.mem_of_getElem? hfield)) position
      · exact fun items hitems => Value.not_isTable_list items (htable _ hitems)
      · exact fun items hitems => Value.not_isTable_list items (htable' _ hitems)

/-- What is loaded is loaded with another resolver as well, if the address can be used then. -/
theorem load_iff_of_load {other : Resolver}
    (h : loader.load world environment names = .ok settings) :
    loader.load world environment other = .ok settings ↔ settings.check other = .ok () := by
  obtain ⟨chosen, file, hchosen, hsets, hreadable, hdecoded, -⟩ := Loader.load_eq_ok_iff.1 h
  constructor
  · intro h'
    obtain ⟨_, _, -, -, -, -, hcheck⟩ := Loader.load_eq_ok_iff.1 h'
    exact hcheck
  · exact fun hcheck => Loader.load_eq_ok_iff.2
      ⟨chosen, file, hchosen, hsets, hreadable, hdecoded, hcheck⟩

end Loading

/-- **A loader takes every setting from its own layer**: from the environment, where that sets it,
or else from the file to be read, where that does, or else the default. -/
structure Loader.Layered (loader : Loader) (world : Files.World)
    (environment : List (String × String)) (names : Resolver) : Prop where
  /-- Nothing takes the place of a file that is asked for and is none. -/
  missing {path : String} (h : loader.Asks environment path)
    (hfile : world.isFile path = false) :
    ∃ fault, loader.load world environment names = .error fault
  /-- What is loaded is decoded from what the two layers give. Where no layer has a section as a
  list, each setting of it comes from its own layer. -/
  own {settings : Settings} (h : loader.load world environment names = .ok settings) :
    ∃ chosen file, loader.Chooses world environment chosen ∧ FileSets world chosen file
      ∧ settings.DecodedFrom
          (given? (Environment.values loader.variableStart environment) file)
      ∧ ∀ sect ∈ sections, Unlisted loader.variableStart environment file sect.name →
          ∀ slot ∈ sect.slots, OwnLayer loader.variableStart environment file
            [sect.name, slot.part.name] slot.means (slot.part.get (sect.get {}))
            (slot.part.get (sect.get settings))
  /-- A variable that sets something elsewhere leaves a setting as it is, unless it leads into a
  section that the file has as a list. -/
  elsewhere {file : Value} (hfile : loader.FileLayer world environment file)
    {name written : String} {place : List String}
    (hplace : place? loader.variableStart name = some place)
    (honce : Once loader.variableStart (environment ++ [(name, written)]))
    {settings settings' : Settings} (h : loader.load world environment names = .ok settings)
    (h' : loader.load world (environment ++ [(name, written)]) names = .ok settings')
    {sect : Section} (hsect : sect ∈ sections)
    (hlist : [sect.name] <+: place → ∀ items, file.get? sect.name ≠ some (.list items))
    {slot : Slot sect.Kind} (hslot : slot ∈ sect.slots)
    (helsewhere : Elsewhere place [sect.name, slot.part.name]) :
    slot.part.get (sect.get settings') = slot.part.get (sect.get settings)
  /-- A variable that sets nothing known changes nothing, with the same exception. -/
  unknown {file : Value} (hfile : loader.FileLayer world environment file)
    {name written : String} {place : List String}
    (hplace : place? loader.variableStart name = some place)
    (honce : Once loader.variableStart (environment ++ [(name, written)]))
    (hunknown : Unknown place)
    (hlist : ∀ sect ∈ sections, [sect.name] <+: place →
      ∀ items, file.get? sect.name ≠ some (.list items))
    {settings : Settings} (h : loader.load world environment names = .ok settings) :
    loader.load world (environment ++ [(name, written)]) names = .ok settings
  /-- Unknown keys of a file change nothing. -/
  unknownInFile {world' : Files.World} {file file' : Value}
    (hfile : loader.FileLayer world environment file)
    (hfile' : loader.FileLayer world' environment file') (hsame : SameKnown file file')
    {settings : Settings} : loader.load world environment names = .ok settings
      ↔ loader.load world' environment names = .ok settings
  /-- How names of hosts are resolved matters to nothing but whether the address can be used. -/
  resolved {other : Resolver} {settings : Settings}
    (h : loader.load world environment names = .ok settings) :
    loader.load world environment other = .ok settings ↔ settings.check other = .ok ()
  /-- A section or setting is set under its name with the beginning of all names in front, letters
  of either case being the same. -/
  named (hstart : loader.StartsPlain) {name : String} {place : List String}
    (hplace : place ∈ knownPlaces) (hname : SameName name (loader.variableFor place)) :
    place? loader.variableStart name = some place

/-- **Settings are layered**, if no two variables set the same, however names of hosts are
resolved. -/
theorem Loader.settings_layered (loader : Loader) (world : Files.World) (names : Resolver)
    {environment : List (String × String)} (honce : Once loader.variableStart environment) :
    loader.Layered world environment names where
  missing := load_of_missing
  own h := by
    obtain ⟨chosen, file, hchosen, hsets, hreadable, hdecoded, hcheck⟩ := load_eq_ok_iff.1 h
    exact ⟨chosen, file, hchosen, hsets, hdecoded, fun sect hsect hunlisted slot hslot =>
      ownLayer_of_load honce ⟨chosen, hchosen, hsets⟩ h hsect hunlisted hslot⟩
  elsewhere hfile _ _ _ hplace honce _ _ h h' _ hsect hlist _ hslot helsewhere :=
    get_eq_of_elsewhere hfile hplace honce h h' hsect hlist hslot helsewhere
  unknown hfile _ _ _ hplace honce hunknown hlist _ h :=
    load_append_of_unknown hfile hplace honce hunknown hlist h
  unknownInFile hfile hfile' hsame :=
    ⟨load_of_sameKnown hfile hfile' hsame, load_of_sameKnown hfile' hfile hsame.symm⟩
  resolved h := load_iff_of_load h
  named := place?_known

/-! ## A file and two environments -/

/-- A file that sets where the server is reached and that it asks for an identity. -/
def guardedText : String := "[server]\nauth = true\naddress = \":9000\"\n"

/-- What that file sets. -/
def guardedValue : Value :=
  .table [("server", .table [("address", .text ":9000"), ("auth", .flag true)])]

/-- A directory with that file. -/
def guardedWorld : Files.World := .ofPlaces [] [(["config.toml"], .file (Text.encode guardedText))]

theorem ofText_guardedText : Value.ofText guardedText .toml = .ok guardedValue := by
  have hchars : guardedText.toList = ['[', 's', 'e', 'r', 'v', 'e', 'r', ']', '\n',
      'a', 'u', 't', 'h', ' ', '=', ' ', 't', 'r', 'u', 'e', '\n',
      'a', 'd', 'd', 'r', 'e', 's', 's', ' ', '=', ' ', '"', ':', '9', '0', '0', '0', '"',
      '\n'] := by
    decide +kernel
  unfold Value.ofText Toml.read
  rw [hchars]
  rfl

theorem node_guardedWorld :
    guardedWorld.node "/config.toml" = .ok (.file (Text.encode guardedText)) := by
  have hroot : guardedWorld.root = .directory [("config.toml", .file (Text.encode guardedText))] :=
    rfl
  have hname : "config.toml" ≠ "." ∧ "config.toml" ≠ ".."
      ∧ "config.toml".utf8ByteSize ≤ Files.World.maxName := by
    decide
  exact Files.World.node_in_root hroot rfl (by decide +kernel) hname rfl nofun

theorem readText_guardedWorld : guardedWorld.readText "/config.toml" = .ok guardedText :=
  Files.World.readText_of_node node_guardedWorld (Text.decode?_encode guardedText)

theorem fileSets_guardedWorld : FileSets guardedWorld (some "/config.toml") guardedValue :=
  .toml (Format.ofPath_eq_toml_iff.1 (by decide +kernel)) readText_guardedWorld ofText_guardedText

section Guarded

variable {loader : Loader} {environment : List (String × String)} (hpath : loader.path = none)
  (hvariable : Table.find? loader.fileVariable environment = none)
include hpath hvariable

/-- The file is read when nothing asks for another one. -/
theorem chooses_guardedWorld : loader.Chooses guardedWorld environment (some "/config.toml") := by
  have hnot (path : String) : ¬ loader.Asks environment path := by
    rintro (hsome | ⟨-, hsome, -⟩)
    · rw [hpath] at hsome
      cases hsome
    · have hnone : Table.find? loader.fileVariable environment = some path := hsome
      rw [hvariable] at hnone
      cases hnone
  have hfile : guardedWorld.isFile "/config.toml" = true := by
    rw [Files.World.isFile, node_guardedWorld]
  exact .found hnot hfile

theorem fileLayer_guardedWorld : loader.FileLayer guardedWorld environment guardedValue :=
  ⟨_, chooses_guardedWorld hpath hvariable, fileSets_guardedWorld⟩

/-- What is loaded there is what the two layers are read as, if it can be used. -/
theorem load_guardedWorld {names : Resolver} {settings : Settings}
    (hread : (ofLayers [⟨.file "config.toml" .toml, guardedValue⟩,
      loader.environmentLayer environment]).toOption = some settings)
    (hcheck : (settings.check names).toOption = some ()) :
    loader.load guardedWorld environment names = .ok settings :=
  (fileLayer_guardedWorld hpath hvariable).load_of_ofLayers (eq_ok_of_toOption hread)
    (eq_ok_of_toOption hcheck)

end Guarded

/-- A variable that sets another address, by the name of a host. -/
def otherAddress : List (String × String) := [("rcs__Server__ADDRESS", "localhost:8080")]

theorem once_otherAddress : Once "RCS__" otherAddress := by
  refine Environment.once_of_elsewhere ?_
  have hplaces : otherAddress.filterMap (fun entry => place? "RCS__" entry.1)
      = [["server", "address"]] := by decide +kernel
  rw [hplaces]
  exact List.pairwise_singleton ..

theorem load_otherAddress : Loader.load {} guardedWorld otherAddress .loopback
    = .ok { server := { address := "localhost:8080", auth := true } } :=
  load_guardedWorld rfl (by decide +kernel) (by decide +kernel) (by decide +kernel)

/-- The variable sets nothing but the address. -/
theorem not_sets_otherAddress {place : List String} (h : ¬ ["server", "address"] <+: place) :
    ∀ entry ∈ otherAddress, ∀ part, ¬ Sets "RCS__" entry place part := by
  rintro entry hentry part ⟨way, inner, rfl, hway, -⟩
  have haddress : place? "RCS__" "rcs__Server__ADDRESS" = some ["server", "address"] := by
    decide +kernel
  obtain rfl := List.mem_singleton.1 hentry
  rw [haddress] at hway
  cases hway
  exact h ⟨inner, rfl⟩

/-- Settings from that file and that variable, where the name of the host is known. Another
variable, which sets nothing known, changes nothing. -/
theorem settings_layered_guarded :
    let more := otherAddress ++ [("RCS__SERVER__COLOUR", "red")]
    Once "RCS__" otherAddress ∧ Once "RCS__" more
      ∧ ∃ settings, Loader.load {} guardedWorld otherAddress .loopback = .ok settings
        ∧ Loader.load {} guardedWorld more .loopback = .ok settings
        ∧ settings.server.address = "localhost:8080" ∧ settings.server.auth = true
        ∧ settings.server.apiPrefix = ({} : Settings).server.apiPrefix := by
  intro more
  have hmore : Once "RCS__" more := by
    refine Environment.once_of_elsewhere ?_
    have hplaces : more.filterMap (fun entry => place? "RCS__" entry.1)
        = [["server", "address"], ["server", "colour"]] := by decide +kernel
    rw [hplaces]
    simp [Elsewhere]
  have hlayered := Loader.settings_layered {} guardedWorld .loopback once_otherAddress
  have hunknown : Unknown ["server", "colour"] := by
    unfold Unknown
    decide +kernel
  have hsame := hlayered.unknown (fileLayer_guardedWorld rfl (by decide +kernel))
    (show place? "RCS__" "RCS__SERVER__COLOUR" = some ["server", "colour"] by decide +kernel) hmore
    hunknown (fun sect _ hprefix items h => by
      have hname : sect.name = "server" := by simpa using hprefix
      rw [hname] at h
      cases h) load_otherAddress
  obtain ⟨chosen, file, hchosen, hsets, -, hown⟩ := hlayered.own load_otherAddress
  obtain rfl := hchosen.unique (chooses_guardedWorld rfl (by decide +kernel))
  obtain rfl := hsets.unique fileSets_guardedWorld
  have hunlisted : Unlisted "RCS__" otherAddress guardedValue "server" :=
    ⟨fun _ h => (nomatch h), fun entry hentry _ =>
      not_sets_otherAddress (by simp) entry hentry _⟩
  have hslots := hown _ (List.mem_cons_self ..) hunlisted
  refine ⟨once_otherAddress, hmore, _, load_otherAddress, hsame, ?_, ?_, ?_⟩
  · have haddress : Sets "RCS__" ("rcs__Server__ADDRESS", "localhost:8080") ["server", "address"]
        (Environment.valueOf "localhost:8080") :=
      ⟨["server", "address"], [], rfl, by decide +kernel, rfl⟩
    have hmeans := (hslots _ (List.mem_of_getElem? (i := 0) rfl)).of_variable
      (List.mem_singleton_self _) haddress
    have htext : (Environment.valueOf "localhost:8080").text? = some "localhost:8080" := by
      decide +kernel
    exact Option.some.inj (hmeans.symm.trans htext)
  · have hmeans := (hslots _ (List.mem_of_getElem? (i := 3) rfl)).of_file
      (not_sets_otherAddress (by simp [Slot.of])) rfl
    exact (Option.some.inj hmeans).symm
  · exact (hslots _ (List.mem_of_getElem? (i := 1) rfl)).of_default
      (not_sets_otherAddress (by simp [Slot.of])) rfl

/-- **Two exceptions.** A list resets a section, although no variable sets what the file sets in it.
And a variable sets nothing if all names are to begin with a blank character, as its own does. -/
theorem settings_not_layered :
    let environment := [("RCS__SERVER", "[]")]
    let loader : Loader := { start := " RCS" }
    (Once "RCS__" environment
      ∧ Loader.FileLayer {} guardedWorld environment guardedValue
      ∧ guardedValue.under ["server", "auth"] = some (.flag true)
      ∧ (∀ entry ∈ environment, ∀ part, ¬ Sets "RCS__" entry ["server", "auth"] part)
      ∧ Loader.load {} guardedWorld environment .loopback = .ok {}
      ∧ ({} : Settings).server.auth = false)
    ∧ loader.variableFor ["server", "auth"] = " RCS__server__auth"
      ∧ loader.load guardedWorld [(" RCS__server__auth", "false")] .loopback
        = .ok { server := { address := ":9000", auth := true } } := by
  intro environment loader
  have hplace : place? "RCS__" "RCS__SERVER" = some ["server"] := by decide +kernel
  refine ⟨⟨?_, fileLayer_guardedWorld rfl (by decide +kernel), rfl, ?_, ?_, rfl⟩,
    by decide +kernel, ?_⟩
  · refine Environment.once_of_elsewhere ?_
    have hplaces : environment.filterMap (fun entry => place? "RCS__" entry.1) = [["server"]] := by
      decide +kernel
    rw [hplaces]
    exact List.pairwise_singleton ..
  · rintro entry hentry part ⟨way, inner, hinner, hway, hunder⟩
    obtain rfl := List.mem_singleton.1 hentry
    rw [hplace] at hway
    cases hway
    obtain rfl : ["auth"] = inner := by simpa using hinner
    have hnone : ((Environment.valueOf "[]").under ["auth"]).isNone = true := by decide +kernel
    rw [hunder] at hnone
    cases hnone
  · exact load_guardedWorld rfl (by decide +kernel) (by decide +kernel) (by decide +kernel)
  · exact load_guardedWorld rfl (by decide +kernel) (by decide +kernel) (by decide +kernel)

end Rulebook.Settings
