import Rulebook.Decimal.Numeral
import Rulebook.Proofs.TargetText
import Rulebook.Service.Tally

/-!
# Counters are read back

The counters are shown for a program that collects them. It reads line by line: a line with a name,
a label in quotes and a number is a **sample**, every other line is a comment or empty
(`Sample.ofLine?`). A label may be any text, since what could end the quotes or the line is escaped
(`Sample.unquote?_quoted`), and the name of a counter has none of the marks of a line in it
whatever name the settings give (`Tally.isName_cleanName`).

So what is collected is what was counted (`Tally.counts_text`), each counter under its own name.
-/

namespace Rulebook

namespace Decimal

/-- A digit has its value. -/
theorem digitValue?_digitChar : ∀ n < 10, digitValue? 10 (Nat.digitChar n) = some n := by decide

/-- **A number is spelled by its digits.** -/
theorem natural?_toDigits (n : Nat) : natural? 10 (Nat.toDigits 10 n) = some n := by
  have hfold : (Nat.toDigits 10 n).foldlM
      (fun m c => (digitValue? 10 c).map (m * 10 + ·)) 0 = some n := by
    induction n using Nat.strongRecOn with
    | ind n ih =>
      rcases Nat.lt_or_ge n 10 with hlt | hle
      · rw [Nat.toDigits_of_lt_base hlt, List.foldlM_cons, digitValue?_digitChar n hlt]
        exact congrArg some (Nat.zero_add n)
      · -- The last digit comes behind those of a smaller number.
        rw [Nat.toDigits_of_base_le (by decide) hle, List.foldlM_append,
          ih (n / 10) (Nat.div_lt_self (by omega) (by decide))]
        show (digitValue? 10 (Nat.digitChar (n % 10))).map (n / 10 * 10 + ·) >>= pure = some n
        rw [digitValue?_digitChar (n % 10) (Nat.mod_lt n (by decide))]
        exact congrArg some (Nat.div_add_mod' n 10)
  rw [natural?, if_neg (by simp [Nat.toDigits_ne_nil]), hfold]

/-- No two numbers have the same digits. -/
theorem toString_inj {n m : Nat} : toString n = toString m ↔ n = m := by
  refine ⟨fun h => ?_, fun h => h ▸ rfl⟩
  have hdigits : Nat.toDigits 10 n = Nat.toDigits 10 m := by
    rw [← String.toList_ofList (l := Nat.toDigits 10 n),
      ← String.toList_ofList (l := Nat.toDigits 10 m)]
    exact congrArg String.toList h
  exact Option.some.inj ((natural?_toDigits n).symm.trans (hdigits ▸ natural?_toDigits m))

end Decimal

namespace Text

/-- A text without the mark is not cut. -/
theorem cut_of_notMem {mark : Char} {chars : List Char} (h : mark ∉ chars) :
    cut mark chars = (chars, []) := by
  have hchars : ∀ c ∈ chars, (c != mark) = true := by
    rintro c hc
    rw [bne_iff_ne]
    rintro rfl
    exact h hc
  rw [cut, ← List.append_nil chars, List.takeWhile_append_of_pos hchars,
    List.dropWhile_append_of_pos hchars]
  rfl

/-- **Lines are found again** if none of them has a line feed in it. -/
theorem split_lines {lines : List String} (h : ∀ line ∈ lines, '\n' ∉ line.toList) :
    split '\n' (String.join (lines.map (· ++ "\n"))).toList = lines.map String.toList ++ [[]] := by
  induction lines with
  | nil => rfl
  | cons line lines ih =>
    obtain ⟨hline, hlines⟩ := List.forall_mem_cons.1 h
    have hjoin : (String.join ((line :: lines).map (· ++ "\n"))).toList
        = line.toList ++ '\n' :: (String.join (lines.map (· ++ "\n"))).toList := by
      rw [List.map_cons, String.join_cons, String.toList_append, String.toList_append,
        List.append_assoc]
      rfl
    rw [hjoin, split_append, split_of_notMem hline, ih hlines]
    rfl

end Text

namespace Service

/-! ## Reading samples -/

/-- **A sample**: what one counter has at one label. -/
structure Sample where
  /-- The name of the counter. -/
  name : String
  /-- What the label tells apart. -/
  key : String
  /-- The label. -/
  label : String
  /-- How often it was counted. -/
  count : Nat
deriving DecidableEq, Repr

namespace Sample

/-- What stands in quotes, up to the closing one, and what follows it. -/
def unquote? : List Char → Option (List Char × List Char)
  | [] => none
  | '"' :: rest => some ([], rest)
  | '\\' :: 'n' :: rest => (unquote? rest).map fun (text, rest) => ('\n' :: text, rest)
  | '\\' :: c :: rest => (unquote? rest).map fun (text, rest) => (c :: text, rest)
  | c :: rest => (unquote? rest).map fun (text, rest) => (c :: text, rest)

/-- **The sample in a line**, if there is one. -/
def ofLine? (line : List Char) : Option Sample :=
  let (name, rest) := Text.cut '\x7b' line
  let (key, rest) := Text.cut '=' rest
  match rest with
  | '"' :: quoted =>
    match unquote? quoted with
    | some (label, '\x7d' :: ' ' :: digits) => (Decimal.natural? 10 digits).map fun count =>
      { name := .ofList name, key := .ofList key, label := .ofList label, count }
    | _ => none
  | _ => none

/-- A line without a brace is no sample. -/
theorem ofLine?_of_notMem {line : List Char} (h : '\x7b' ∉ line) : ofLine? line = none := by
  rw [ofLine?, Text.cut_of_notMem h]
  rfl

/-- **The samples in a text**, line by line. -/
def ofText (text : String) : List Sample := (Text.split '\n' text.toList).filterMap ofLine?

/-- **What is collected of a counter**: how often each label was counted. -/
def counts (name : String) (text : String) : List (String × Nat) :=
  ((ofText text).filter (·.name = name)).map fun sample => (sample.label, sample.count)

/-- The samples of a table of counters. -/
def ofTable (name key : String) (table : Table Nat) : List Sample :=
  table.entries.map fun entry => ⟨name, key, entry.1, entry.2⟩

/-- The samples of a table are collected under its own name only. -/
theorem counts_ofTable (name other key : String) (table : Table Nat) :
    ((ofTable name key table).filter (·.name = other)).map
        (fun sample => (sample.label, sample.count))
      = if name = other then table.entries else [] := by
  have hname : ∀ sample ∈ ofTable name key table, sample.name = name :=
    List.forall_mem_map.2 fun _ _ => rfl
  split
  next heq =>
    have hall : ∀ sample ∈ ofTable name key table, decide (sample.name = other) = true :=
      fun sample hsample => decide_eq_true ((hname sample hsample).trans heq)
    rw [List.filter_eq_self.2 hall, ofTable, List.map_map]
    exact List.map_id _
  next hne =>
    have hnone : ∀ sample ∈ ofTable name key table, ¬ decide (sample.name = other) = true :=
      fun sample hsample h => hne ((hname sample hsample).symm.trans (of_decide_eq_true h))
    rw [List.filter_eq_nil_iff.2 hnone]
    rfl

end Sample

namespace Tally

/-! ## Labels in quotes -/

/-- How a character of a label is written. -/
def escape (c : Char) : List Char :=
  if c == '"' then ['\\', '"']
  else if c == '\\' then ['\\', '\\']
  else if c == '\n' then ['\\', 'n']
  else [c]

/-- A label in quotes, character by character. -/
theorem toList_quotedLabel (label : String) :
    (quotedLabel label).toList = '"' :: (label.toList.flatMap escape ++ ['"']) := by
  rw [quotedLabel, String.toList_ofList]
  rfl

/-- No line feed is left in a label. -/
theorem lineFeed_notMem_quotedLabel (label : String) : '\n' ∉ (quotedLabel label).toList := by
  have hescape (c : Char) : '\n' ∉ escape c := by
    unfold escape
    split
    · decide
    split
    · decide
    split
    · decide
    · rename_i hfeed
      exact fun hmem => hfeed (beq_iff_eq.2 (List.mem_singleton.1 hmem).symm)
  rw [toList_quotedLabel]
  simp only [List.mem_cons, List.mem_append, List.mem_flatMap, not_or, not_exists, not_and]
  exact ⟨by decide, fun c _ => hescape c, by decide, List.not_mem_nil⟩

end Tally

/-- **A label is read back**, whatever follows the quotes. -/
theorem Sample.unquote?_quoted (label rest : List Char) :
    unquote? (label.flatMap Tally.escape ++ '"' :: rest) = some (label, rest) := by
  induction label with
  | nil => rfl
  | cons c label ih =>
    rw [List.flatMap_cons, List.append_assoc]
    by_cases hquote : c = '"'
    · subst hquote
      exact congrArg (Option.map _) ih
    by_cases hslash : c = '\\'
    · subst hslash
      exact congrArg (Option.map _) ih
    by_cases hfeed : c = '\n'
    · subst hfeed
      exact congrArg (Option.map _) ih
    · have hescape : Tally.escape c = [c] := by simp [Tally.escape, hquote, hslash, hfeed]
      rw [hescape, List.singleton_append, unquote?, ih]
      · rfl
      · exact hquote
      · rintro _ rfl
        exact absurd rfl hslash
      · rintro _ _ rfl
        exact absurd rfl hslash

namespace Tally

/-! ## Names -/

/-- What may stand first in a name may stand everywhere in it. -/
theorem isNameChar_of_first {first : Bool} {c : Char} (h : isNameChar first c = true) :
    isNameChar false c = true := by
  cases first with
  | false => exact h
  | true =>
    have hfirst : (c.isAlpha || c == '_' || c == ':') = true := by simpa [isNameChar] using h
    rw [isNameChar, hfirst, Bool.true_or]

/-- Texts that are names of counters. -/
def IsName (name : String) : Prop := ∀ c ∈ name.toList, isNameChar false c = true

instance (name : String) : Decidable (IsName name) :=
  decidable_of_iff (name.toList.all (isNameChar false) = true) List.all_eq_true

/-- A character that may not stand in a name is not in it. -/
theorem IsName.notMem {name : String} (h : IsName name) {c : Char}
    (hc : isNameChar false c = false) : c ∉ name.toList := by
  intro hmem
  rw [h c hmem] at hc
  cases hc

/-- A name that goes on with characters of names is a name. -/
theorem IsName.append {name more : String} (h : IsName name) (hmore : IsName more) :
    IsName (name ++ more) := by
  rw [IsName, String.toList_append]
  exact List.forall_mem_append.2 ⟨h, hmore⟩

/-- **What is made a name is one.** -/
theorem isName_cleanName (name : String) : IsName (cleanName name) := by
  intro c h
  have hclean (first : Bool) (c : Char) :
      isNameChar false (if isNameChar first c then c else '_') = true := by
    split
    next hchar => exact isNameChar_of_first hchar
    · rfl
  unfold cleanName at h
  cases hname : name.toList with
  | nil =>
    rw [hname] at h
    cases h
  | cons first rest =>
    rw [hname] at h
    dsimp only at h
    rw [String.toList_ofList] at h
    rcases List.mem_cons.1 h with rfl | h
    · exact hclean true first
    · obtain ⟨c, -, rfl⟩ := List.mem_map.1 h
      exact hclean false c

/-- A name keeps its length. -/
theorem length_cleanName (name : String) : (cleanName name).length = name.length := by
  rw [← String.length_toList, ← String.length_toList]
  unfold cleanName
  cases hname : name.toList with
  | nil => rfl
  | cons first rest => simp

/-- The name under which a counter is shown. -/
def shownName (metrics : Settings.Metrics) (counter : String) : String :=
  cleanName (metrics.fullName counter)

/-- The settings put the same in front of every name. -/
theorem length_shownName (metrics : Settings.Metrics) (counter : String) :
    (shownName metrics counter).length = (shownName metrics "").length + counter.length := by
  unfold shownName
  rw [length_cleanName, length_cleanName]
  unfold Settings.Metrics.fullName
  split
  · exact (Nat.zero_add _).symm
  · simp [String.length_append]

/-! ## Lines -/

/-- The line of a sample. -/
def line (name key label : String) (count : Nat) : String :=
  name ++ "\x7b" ++ key ++ "=" ++ quotedLabel label ++ "\x7d " ++ toString count

/-- The line of a sample, character by character. -/
theorem toList_line (name key label : String) (count : Nat) :
    (line name key label count).toList = name.toList ++ '\x7b' :: (key.toList ++ '=' :: '"' ::
      (label.toList.flatMap escape ++ '"' :: '\x7d' :: ' ' :: Nat.toDigits 10 count)) := by
  unfold line
  simp only [String.toList_append, toList_quotedLabel, Nat.toString_eq_repr, Nat.toList_repr,
    List.append_assoc, List.cons_append, List.nil_append]
  rfl

section Lines

variable {kind name sample key : String}

/-- **Lines show samples** if each is one line and these are the samples in them. -/
structure Shows (lines : List String) (samples : List Sample) : Prop where
  /-- No line has a line feed in it. -/
  oneLine : ∀ line ∈ lines, '\n' ∉ line.toList
  /-- The samples are those in the lines. -/
  reads : lines.filterMap (fun line => Sample.ofLine? line.toList) = samples

namespace Shows

/-- No lines show nothing. -/
theorem nil : Shows [] [] := ⟨nofun, rfl⟩

/-- What lines show they show together. -/
theorem append {lines more : List String} {samples others : List Sample}
    (h : Shows lines samples) (hmore : Shows more others) :
    Shows (lines ++ more) (samples ++ others) where
  oneLine := List.forall_mem_append.2 ⟨h.oneLine, hmore.oneLine⟩
  reads := by rw [List.filterMap_append, h.reads, hmore.reads]

/-- **Lines in a text show what they show.** -/
theorem ofText {lines : List String} {samples : List Sample} (h : Shows lines samples) :
    Sample.ofText (String.join (lines.map (· ++ "\n"))) = samples := by
  rw [Sample.ofText, Text.split_lines h.oneLine, List.filterMap_append, List.filterMap_map]
  exact (List.append_nil _).trans h.reads

/-- A line without a brace shows nothing. -/
theorem comment {line : String} (hfeed : '\n' ∉ line.toList) (hbrace : '\x7b' ∉ line.toList) :
    Shows [line] [] where
  oneLine := List.forall_mem_singleton.2 hfeed
  reads := List.filterMap_cons_none (Sample.ofLine?_of_notMem hbrace)

/-- **The line of a sample shows it.** -/
theorem line (hname : IsName name) (hkey : IsName key) (label : String) (count : Nat) :
    Shows [line name key label count] [{ name, key, label, count }] where
  oneLine := by
    have hdigits : '\n' ∉ Nat.toDigits 10 count := by
      intro hmem
      exact absurd (Nat.isDigit_of_mem_toDigits (by decide) (by decide) hmem) (by decide)
    have hlabel := lineFeed_notMem_quotedLabel label
    unfold Tally.line
    simp only [List.forall_mem_singleton, String.toList_append, List.mem_append,
      Nat.toString_eq_repr, Nat.toList_repr, not_or]
    exact ⟨⟨⟨⟨⟨⟨hname.notMem (by decide), by decide⟩, hkey.notMem (by decide)⟩, by decide⟩,
      hlabel⟩, by decide⟩, hdigits⟩
  reads := by
    refine List.filterMap_cons_some ?_
    rw [toList_line, Sample.ofLine?, Text.cut_append (hname.notMem (by decide))]
    dsimp only
    rw [Text.cut_append (hkey.notMem (by decide))]
    simp only [Sample.unquote?_quoted, Decimal.natural?_toDigits, Option.map_some,
      String.ofList_toList]

end Shows

/-- **The lines of a counter show it.** -/
theorem shows_lines (hkind : IsName kind) (hname : IsName name) (hsample : IsName sample)
    (hkey : IsName key) (table : Table Nat) :
    Shows (lines kind name sample key table) (Sample.ofTable (name ++ sample) key table) := by
  have hentries (entries : List (String × Nat)) :
      Shows (entries.map fun entry => line (name ++ sample) key entry.1 entry.2)
        (entries.map fun entry => ⟨name ++ sample, key, entry.1, entry.2⟩) := by
    induction entries with
    | nil => exact .nil
    | cons entry entries ih =>
      exact (Shows.line (hname.append hsample) hkey entry.1 entry.2).append ih
  -- In front of the samples stands a comment, and behind them an empty line.
  have hcomment : Shows ["# TYPE " ++ name ++ " " ++ kind] [] := by
    have hnotMem {c : Char} (hc : isNameChar false c = false) (hne : c ∉ "# TYPE ".toList)
        (hspace : c ∉ " ".toList) : c ∉ ("# TYPE " ++ name ++ " " ++ kind).toList := by
      simp only [String.toList_append, List.mem_append, not_or]
      exact ⟨⟨⟨hne, hname.notMem hc⟩, hspace⟩, hkind.notMem hc⟩
    exact .comment (hnotMem (by decide) (by decide) (by decide))
      (hnotMem (by decide) (by decide) (by decide))
  have hempty : Shows [""] [] := .comment (by decide) (by decide)
  unfold lines
  split
  next hnone =>
    rw [Sample.ofTable, List.isEmpty_iff.1 hnone]
    exact .nil
  · have hall := (hcomment.append (hentries table.entries)).append hempty
    rwa [List.append_nil] at hall

end Lines

/-! ## The counters as text -/

/-- The name of the counter of requests. -/
def requestsName (metrics : Settings.Metrics) : String := shownName metrics "api_endpoints_requests"

/-- The name of the counter of status codes. -/
def codesName (metrics : Settings.Metrics) : String :=
  shownName metrics "api_endpoints_status_codes"

/-- The name of the counter that goes with the times. -/
def timesName (metrics : Settings.Metrics) : String :=
  shownName metrics "api_endpoints_response_time" ++ "_count"

section Shown

variable (tally : Tally) (metrics : Settings.Metrics)

/-- **The samples that are shown are those of the counters.** -/
theorem ofText_text : Sample.ofText (tally.text metrics)
    = Sample.ofTable (requestsName metrics) "endpoint" tally.endpoints
      ++ Sample.ofTable (codesName metrics) "status_code" tally.codes
      ++ Sample.ofTable (timesName metrics) "endpoint" tally.endpoints := by
  have hname (counter : String) : IsName (shownName metrics counter) := isName_cleanName _
  obtain ⟨hnone, hcount, hcounter, hsummary, hendpoint, hcode⟩ : IsName "" ∧ IsName "_count"
      ∧ IsName "counter" ∧ IsName "summary" ∧ IsName "endpoint" ∧ IsName "status_code" := by
    decide
  have hrequests := shows_lines hcounter (hname "api_endpoints_requests") hnone hendpoint
    tally.endpoints
  have hcodes := shows_lines hcounter (hname "api_endpoints_status_codes") hnone hcode tally.codes
  have htimes := shows_lines hsummary (hname "api_endpoints_response_time") hcount hendpoint
    tally.endpoints
  rw [String.append_empty] at hrequests hcodes
  exact ((hrequests.append hcodes).append htimes).ofText

/-- **What is collected is what was counted**, each counter under its own name. -/
theorem counts_text :
    Sample.counts (requestsName metrics) (tally.text metrics) = tally.endpoints.entries
      ∧ Sample.counts (codesName metrics) (tally.text metrics) = tally.codes.entries
      ∧ Sample.counts (timesName metrics) (tally.text metrics) = tally.endpoints.entries := by
  -- No two of the names have the same length.
  have hrequests : (requestsName metrics).length = (shownName metrics "").length + 22 :=
    length_shownName metrics _
  have hcodes : (codesName metrics).length = (shownName metrics "").length + 26 :=
    length_shownName metrics _
  have htimes : (timesName metrics).length = (shownName metrics "").length + 33 := by
    rw [timesName, String.length_append, length_shownName]
    rfl
  have hne {name other : String} (h : name.length ≠ other.length) : name ≠ other :=
    fun heq => h (congrArg String.length heq)
  have hcounts (name : String) : Sample.counts name (tally.text metrics)
      = (if requestsName metrics = name then tally.endpoints.entries else [])
        ++ (if codesName metrics = name then tally.codes.entries else [])
        ++ (if timesName metrics = name then tally.endpoints.entries else []) := by
    rw [Sample.counts, ofText_text, List.filter_append, List.filter_append, List.map_append,
      List.map_append, Sample.counts_ofTable, Sample.counts_ofTable, Sample.counts_ofTable]
  refine ⟨?_, ?_, ?_⟩
  · rw [hcounts, if_pos rfl, if_neg (hne (by omega)), if_neg (hne (by omega)), List.append_nil,
      List.append_nil]
  · rw [hcounts, if_neg (hne (by omega)), if_pos rfl, if_neg (hne (by omega)), List.append_nil,
      List.nil_append]
  · rw [hcounts, if_neg (hne (by omega)), if_neg (hne (by omega)), if_pos rfl, List.nil_append,
      List.nil_append]

end Shown

end Tally

end Service

end Rulebook
