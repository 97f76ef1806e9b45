import Rulebook.Proofs.SettingsReading

/-!
# Names of the variables that set something

A section or setting is set by the variable that has its name with the beginning of all names in
front and a double underscore between, letters of either case being the same
(`Loader.place?_known`). Names are trimmed before their beginning is looked at, so this takes a
beginning that is not blank itself; the known names have no blank character at their ends.

The variable that names the file is none of these: it begins as they do but for one character, where
it has a letter (`Loader.place?_fileVariable`). So no variable that sets something changes which
file is read.
-/

namespace Rulebook.Settings

open Environment (place?)

namespace Environment

/-! ## Names in letters of either case -/

/-- The small letter of a blank character is blank, and of no other. -/
theorem isBlank_toLower (c : Char) : Text.isBlank c.toLower = Text.isBlank c := by
  delta Char.toLower
  split
  · rename_i h
    have hlow : 65 ≤ c.toNat := h.1
    have hhigh : c.toNat ≤ 90 := h.2
    have hval : (c.val + ('a'.val - 'A'.val)).toNat = c.toNat + 32 := by
      rw [UInt32.toNat_add]
      show (c.toNat + 32) % 2 ^ 32 = _
      omega
    rw [Text.isBlank_of_printed (c := c) (by omega) (by omega)]
    refine Text.isBlank_of_printed ?_ ?_
    · show 33 ≤ (c.val + ('a'.val - 'A'.val)).toNat
      omega
    · show (c.val + ('a'.val - 'A'.val)).toNat ≤ 126
      omega
  · rfl

theorem isBlank_congr {a b : Char} (h : a.toLower = b.toLower) :
    Text.isBlank a = Text.isBlank b := by
  rw [← isBlank_toLower, h, isBlank_toLower]

/-- The beginning of a list is found in letters of either case. -/
theorem dropStart?_of_lower {start rest chars : List Char}
    (h : chars.map Char.toLower = (start ++ rest).map Char.toLower) :
    ∃ behind, dropStart? start chars = some behind
      ∧ behind.map Char.toLower = rest.map Char.toLower := by
  induction start generalizing chars with
  | nil => exact ⟨chars, by rw [dropStart?], h⟩
  | cons first start ih =>
    cases chars with
    | nil => cases h
    | cons c chars =>
      rw [List.cons_append, List.map_cons, List.map_cons, List.cons.injEq] at h
      rw [dropStart?, if_pos (beq_iff_eq.2 h.1.symm)]
      exact ih h.2

/-- What follows the beginning of a list is behind it, but for the case of the letters. -/
theorem lower_of_dropStart? {start chars behind : List Char}
    (h : dropStart? start chars = some behind) :
    chars.map Char.toLower = start.map Char.toLower ++ behind.map Char.toLower := by
  induction start generalizing chars with
  | nil =>
    rw [dropStart?] at h
    cases h
    rfl
  | cons first start ih =>
    cases chars with
    | nil => cases h
    | cons c chars =>
      rw [dropStart?] at h
      split at h
      · rename_i hfirst
        rw [List.map_cons, ih h, List.map_cons, List.cons_append, beq_iff_eq.1 hfirst]
      · cases h

/-- A character that is found is not blank if none that is found is. -/
theorem not_blank_of_any {found? : Option Char} (h : found?.any Text.isBlank = false) :
    ∀ c ∈ found?, Text.isBlank c = false := by
  rintro c rfl
  exact h

/-- A name is not trimmed if one in other letters of either case has no blank character at its
ends. -/
theorem trimList_of_lower {chars other : List Char}
    (h : chars.map Char.toLower = other.map Char.toLower)
    (hfirst : ∀ c ∈ other.head?, Text.isBlank c = false)
    (hlast : ∀ c ∈ other.getLast?, Text.isBlank c = false) :
    Text.trimList Text.isBlank chars = chars := by
  have hends {end? end?' : Option Char} (heq : end?.map Char.toLower = end?'.map Char.toLower)
      (hblank : ∀ c ∈ end?', Text.isBlank c = false) : ∀ c ∈ end?, Text.isBlank c = false := by
    rintro c rfl
    obtain ⟨c', rfl, hlower⟩ := Option.map_eq_some_iff.1 heq.symm
    rw [← isBlank_congr hlower]
    exact hblank c' rfl
  refine Text.trimList_eq_self (hends ?_ hfirst) (hends ?_ hlast)
  · rw [← List.head?_map, h, List.head?_map]
  · rw [← List.getLast?_map, h, List.getLast?_map]

/-- **What a name sets** that is spelled in letters of either case. -/
theorem place?_of_lower {start name : String} {rest : List Char} {keys : List String}
    (hname : name.toList.map Char.toLower = (start.toList ++ rest).map Char.toLower)
    (hfirst : ∀ c ∈ (start.toList ++ rest).head?, Text.isBlank c = false)
    (hlast : ∀ c ∈ (start.toList ++ rest).getLast?, Text.isBlank c = false)
    (hpieces : pieces (Text.trimList Text.isBlank (rest.map Char.toLower))
      = keys.map String.toList) (hkeys : ∀ key ∈ keys, key ≠ "") :
    place? start name = some keys := by
  obtain ⟨behind, hbehind, hlower⟩ := dropStart?_of_lower hname
  have htrim : (Text.trim name).toList = name.toList := by
    rw [Text.trim, Text.trimWith, String.toList_ofList, trimList_of_lower hname hfirst hlast]
  have hnone : (keys.map String.toList).any List.isEmpty = false := by
    simpa [List.any_eq_false] using hkeys
  rw [place?, htrim, hbehind]
  dsimp only
  rw [hlower, hpieces, hnone]
  simp [Function.comp_def]

end Environment

/-! ## Names of variables -/

/-- **The same name**, letters of either case being the same. -/
def SameName (name other : String) : Prop := name.toLower = other.toLower

/-- **The places that are known**: the sections and their settings. -/
def knownPlaces : List (List String) :=
  sections.flatMap fun sect =>
    [sect.name] :: (namesOf sect.slots).map fun field => [sect.name, field]

/-- A known place is spelled by its keys with a double underscore between them. -/
theorem pieces_known : ∀ place ∈ knownPlaces,
    let rest := "__".intercalate place
    rest.toList ≠ [] ∧ rest.toList.getLast?.any Text.isBlank = false
      ∧ Environment.pieces (Text.trimList Text.isBlank (rest.toList.map Char.toLower))
        = place.map String.toList
      ∧ ∀ key ∈ place, key ≠ "" := by
  decide +kernel

namespace Loader

/-- The name of the variable that sets a place. -/
def variableFor (loader : Loader) (place : List String) : String :=
  loader.variableStart ++ "__".intercalate place

/-- The names of the variables do not begin with a blank character, which would be passed over. -/
def StartsPlain (loader : Loader) : Prop :=
  ∀ c ∈ loader.start.toList.head?, Text.isBlank c = false

/-- **The variable for a known place sets it**, its name being in letters of either case. -/
theorem place?_known {loader : Loader} (hstart : loader.StartsPlain) {name : String}
    {place : List String} (hplace : place ∈ knownPlaces)
    (hname : SameName name (loader.variableFor place)) :
    place? loader.variableStart name = some place := by
  obtain ⟨hne, hlast, hpieces, hkeys⟩ := pieces_known place hplace
  have hlower : name.toList.map Char.toLower
      = (loader.variableStart.toList ++ ("__".intercalate place).toList).map Char.toLower := by
    rw [← String.toList_append, ← String.toList_map, ← String.toList_map]
    exact congrArg String.toList hname
  refine Environment.place?_of_lower hlower ?_ ?_ hpieces hkeys
  · rw [variableStart, String.toList_append, List.append_assoc]
    cases hchars : loader.start.toList with
    | nil =>
      intro c hc
      obtain rfl : '_' = c := Option.some.inj hc
      rfl
    | cons first chars => exact fun c hc => hstart c (by rwa [hchars])
  · rw [List.getLast?_append_of_ne_nil _ hne]
    exact Environment.not_blank_of_any hlast

/-- The variable that may name the file sets nothing. -/
theorem place?_fileVariable (loader : Loader) :
    place? loader.variableStart loader.fileVariable = none := by
  have hnone : Environment.dropStart? loader.variableStart.toList
      (Text.trim loader.fileVariable).toList = none := by
    by_contra hsome
    obtain ⟨behind, hbehind⟩ := Option.ne_none_iff_exists'.1 hsome
    have hlower := Environment.lower_of_dropStart? hbehind
    rw [Text.trim, Text.trimWith, String.toList_ofList, variableStart, fileVariable,
      String.toList_append, String.toList_append] at hlower
    by_cases hstart : loader.StartsPlain
    · -- nothing is trimmed, and an underscore stands where the variable has a letter
      rw [Text.trimList_eq_self ?_ ?_, List.map_append, List.map_append, List.append_assoc,
        List.append_cancel_left_eq] at hlower
      · exact absurd (List.cons.inj (List.cons.inj hlower).2).1 (by decide)
      · cases hchars : loader.start.toList with
        | nil => exact Environment.not_blank_of_any (by decide)
        | cons first chars => exact fun c hc => hstart c (by rwa [hchars])
      · rw [List.getLast?_append_of_ne_nil _ (by decide)]
        exact Environment.not_blank_of_any (by decide)
    · -- what is trimmed does not begin as the names do
      obtain ⟨c, hc, hblank⟩ : ∃ c ∈ loader.start.toList.head?, Text.isBlank c ≠ false := by
        simpa [StartsPlain] using hstart
      obtain ⟨chars, hchars⟩ := List.head?_eq_some_iff.1 hc
      obtain ⟨first, rest, htrim, hfirst⟩ :
          ∃ first rest, Text.trimList Text.isBlank
              (loader.start.toList ++ "_CONFIG_FILE".toList) = first :: rest
            ∧ first.toLower = c.toLower := by
        rw [hchars] at hlower ⊢
        obtain ⟨first, rest, htrim, hfirst, -⟩ := List.map_eq_cons_iff.1 hlower
        exact ⟨first, rest, htrim, hfirst⟩
      refine hblank ?_
      rw [← Environment.isBlank_congr hfirst]
      exact Text.head?_trimList (by rw [htrim]; rfl)
  rw [place?, hnone]

/-- A variable that sets something is not the one that names the file. -/
theorem filePath_append {loader : Loader} {name written : String} {place : List String}
    (hplace : place? loader.variableStart name = some place) (world : Files.World)
    (environment : List (String × String)) :
    loader.filePath world (environment ++ [(name, written)])
      = loader.filePath world environment := by
  have hne : name ≠ loader.fileVariable := by
    rintro rfl
    rw [place?_fileVariable] at hplace
    cases hplace
  have hfind : Table.find? loader.fileVariable (environment ++ [(name, written)])
      = Table.find? loader.fileVariable environment := by
    induction environment with
    | nil => simp [Table.find?, hne]
    | cons entry rest ih => rw [List.cons_append, Table.find?, Table.find?, ih]
  rw [filePath, filePath, requested, requested, hfind]

end Loader

end Rulebook.Settings
