import Rulebook.Command.Run
import Rulebook.Proofs.Consistency
import Mathlib.Algebra.GroupWithZero.Nat
import Mathlib.Data.Finset.Card
import Mathlib.Data.Finset.Dedup

/-!
# How a check ends

A check that finds its files shows all findings and then succeeds or fails. What decides is whether
the tag of some error key is repeated or foreign to all groups: only these findings are errors
(`Check.countP_checkKeyTags`), whatever else is found in the content or in the groups. The failure
tells their number, `Check.wrongTags`, which is counted here from the rules alone: the occurrences
of tags that are not the first in their error key, and the tags that no group lists.

So the outcome of a check depends on the rules that were loaded and on which tags the groups list
(`Command.checkFiles_decided`).
-/

namespace Rulebook

open Files (World)

/-- The error keys of all rules. -/
def Rules.allKeys (rules : Rules) : List ErrorKey :=
  rules.rules.values.flatMap fun rule => rule.errorKeys.values

namespace Check

/-! ## Wrong tags -/

/-- Whether some group lists a tag. -/
def Listed (catalog : GroupCatalog) (tag : String) : Prop :=
  ∃ group ∈ catalog.groups, tag ∈ group.tags

instance (catalog : GroupCatalog) (tag : String) : Decidable (Listed catalog tag) :=
  inferInstanceAs (Decidable (∃ group ∈ catalog.groups, tag ∈ group.tags))

theorem mem_tags_iff {catalog : GroupCatalog} {tag : String} :
    tag ∈ catalog.tags ↔ Listed catalog tag :=
  List.mem_flatMap

/-- How many occurrences of tags in a list repeat one before them. -/
def repeatedTags (tags : List String) : Nat := tags.length - tags.toFinset.card

/-- The tags of a list that no group lists. -/
def foreignTags (catalog : GroupCatalog) (tags : List String) : Finset String :=
  tags.toFinset.filter fun tag => ¬ Listed catalog tag

/-- **The number of wrong tags**: in each error key the repeated occurrences, and the different tags
that no group lists. -/
def wrongTags (catalog : GroupCatalog) (rules : Rules) : Nat :=
  (rules.allKeys.map fun key =>
    repeatedTags key.metadata.tags + (foreignTags catalog key.metadata.tags).card).sum

/-- **Some error key has a wrong tag**: it repeats one, or has one that no group lists. -/
def HasWrongTag (catalog : GroupCatalog) (rules : Rules) : Prop :=
  ∃ rule ∈ rules.rules.values, ∃ key ∈ rule.errorKeys.values,
    ¬ key.metadata.tags.Nodup ∨ ∃ tag ∈ key.metadata.tags, ¬ Listed catalog tag

/-! ## Which findings are errors -/

/-- A blank text is no error. -/
theorem countP_blank (subject what value : String) :
    (blank subject what value).countP Finding.isError = 0 := by
  unfold blank
  split <;> rfl

/-- What a new tag adds to the new ones. -/
theorem insert_sdiff_eq {α : Type} [DecidableEq α] {tag : α} {rest seen : Finset α}
    (hseen : tag ∉ seen) : insert tag rest \ seen = insert tag (rest \ insert tag seen) := by
  ext other
  simp only [Finset.mem_sdiff, Finset.mem_insert]
  by_cases hother : other = tag
  · simp [hother, hseen]
  · simp [hother]

/-- **A tag is an error for each occurrence behind the first**, and the first one is an error if the
tag is not known. Those in `seen` have occurred before. -/
theorem countP_checkKeyTags (known : List String) (subject : String) (seen tags : List String) :
    (checkKeyTags known subject seen tags).countP Finding.isError
        + (tags.toFinset \ seen.toFinset).card
      = tags.length + ((tags.toFinset \ seen.toFinset) \ known.toFinset).card := by
  induction tags generalizing seen with
  | nil => simp [checkKeyTags]
  | cons tag rest ih =>
    -- A repeated tag adds one error and one to the length. A new one adds one to the new tags and
    -- one to the length, and if it is not known, also one error and one to the unknown tags.
    have ih := ih (tag :: seen)
    rw [List.toFinset_cons] at ih
    rw [checkKeyTags, List.countP_append, List.toFinset_cons, List.length_cons]
    have hone (message : String) :
      [(⟨.error, subject, message⟩ : Finding)].countP Finding.isError = 1 := rfl
    by_cases hseen : tag ∈ seen
    · have hold : insert tag seen.toFinset = seen.toFinset :=
        Finset.insert_eq_of_mem (List.mem_toFinset.2 hseen)
      rw [hold] at ih
      rw [Finset.insert_sdiff_of_mem _ (List.mem_toFinset.2 hseen), if_pos (by simpa using hseen),
        hone]
      omega
    · have hnew : tag ∉ rest.toFinset \ insert tag seen.toFinset := by simp
      rw [if_neg (by simpa using hseen), insert_sdiff_eq (by simpa using hseen),
        Finset.card_insert_of_notMem hnew]
      by_cases hknown : tag ∈ known
      · rw [if_pos (by simpa using hknown),
          Finset.insert_sdiff_of_mem _ (List.mem_toFinset.2 hknown), List.countP_nil]
        omega
      · rw [if_neg (by simpa using hknown), hone,
          Finset.insert_sdiff_of_notMem _ (by simpa using hknown),
          Finset.card_insert_of_notMem fun h => hnew (Finset.mem_sdiff.1 h).1]
        omega

/-- The errors about the tags of an error key are its wrong tags. -/
theorem countP_checkKeyTags_nil (catalog : GroupCatalog) (subject : String) (tags : List String) :
    (checkKeyTags catalog.tags subject [] tags).countP Finding.isError
      = repeatedTags tags + (foreignTags catalog tags).card := by
  have h := countP_checkKeyTags catalog.tags subject [] tags
  have hforeign : tags.toFinset \ catalog.tags.toFinset = foreignTags catalog tags := by
    ext tag
    simp [foreignTags, mem_tags_iff]
  have hle : tags.toFinset.card ≤ tags.length := List.toFinset_card_le tags
  rw [List.toFinset_nil, Finset.sdiff_empty, hforeign] at h
  rw [repeatedTags]
  omega

/-- The errors about an error key are its wrong tags. -/
theorem countP_errorKey (catalog : GroupCatalog) (subject : String) (key : ErrorKey) :
    (errorKey catalog.tags subject key).countP Finding.isError
      = repeatedTags key.metadata.tags + (foreignTags catalog key.metadata.tags).card := by
  simp only [errorKey, List.countP_append, countP_blank, countP_checkKeyTags_nil, Nat.zero_add]

/-- The errors about a rule are the wrong tags of its error keys. -/
theorem countP_rule (catalog : GroupCatalog) (name : String) (found : Rule) :
    (rule catalog.tags name found).countP Finding.isError
      = (found.errorKeys.values.map fun key =>
          repeatedTags key.metadata.tags + (foreignTags catalog key.metadata.tags).card).sum := by
  have hnone : (if found.errorKeys.entries.isEmpty then
      [(⟨.warning, "rule '" ++ name ++ "'", "rule contains no error key"⟩ : Finding)]
      else []).countP Finding.isError = 0 := by
    split <;> rfl
  simp only [rule, List.countP_append, countP_blank, hnone, Nat.zero_add, List.countP_flatMap,
    Table.values, List.map_map]
  refine congrArg List.sum (List.map_congr_left fun entry _ => ?_)
  exact countP_errorKey catalog _ entry.2

/-- **The errors in the content are the wrong tags.** -/
theorem countP_content (catalog : GroupCatalog) (rules : Rules) :
    (content catalog rules).countP Finding.isError = wrongTags catalog rules := by
  rw [content, List.countP_flatMap, wrongTags, Rules.allKeys, List.map_flatMap, List.flatMap_def,
    List.sum_flatten, Table.values, List.map_map, List.map_map]
  refine congrArg List.sum (List.map_congr_left fun entry _ => ?_)
  rw [Function.comp_apply, countP_rule]
  rfl

/-! ## Findings about groups -/

theorem countP_checkTags (groupName : String) (owners : Owners) (tags : List String) :
    (checkTags groupName owners tags).2.countP Finding.isError = 0 := by
  induction tags generalizing owners with
  | nil => rfl
  | cons tag rest ih =>
    have hfirst : (checkTag groupName owners tag).2.countP Finding.isError = 0 := by
      unfold checkTag
      split <;> rfl
    rw [checkTags, List.countP_append, hfirst, ih]

theorem countP_checkGroups (owners : Owners) (entries : List (String × Group)) :
    (checkGroups owners entries).countP Finding.isError = 0 := by
  induction entries generalizing owners with
  | nil => rfl
  | cons entry rest ih =>
    have hname : (checkName owners entry.1 entry.2).2.countP Finding.isError = 0 := by
      unfold checkName
      split <;> rfl
    rw [checkGroups, List.countP_append, List.countP_append, hname, countP_checkTags, ih]

/-- **No finding about groups is an error.** -/
theorem countP_groups (catalog : GroupCatalog) :
    (groups catalog).countP Finding.isError = 0 :=
  countP_checkGroups {} catalog.entries

/-! ## Whether there is a wrong tag -/

theorem repeatedTags_eq_zero_iff {tags : List String} : repeatedTags tags = 0 ↔ tags.Nodup := by
  have hle : tags.toFinset.card ≤ tags.length := List.toFinset_card_le tags
  rw [← List.dedup_eq_self, repeatedTags, List.card_toFinset] at *
  constructor
  · intro h
    exact (List.dedup_sublist tags).eq_of_length_le (by omega)
  · intro h
    rw [h]
    omega

theorem foreignTags_eq_empty_iff {catalog : GroupCatalog} {tags : List String} :
    foreignTags catalog tags = ∅ ↔ ∀ tag ∈ tags, Listed catalog tag := by
  simp [foreignTags, Finset.filter_eq_empty_iff]

/-- An error key adds to the number of wrong tags exactly when it has one. -/
theorem wrong_iff {catalog : GroupCatalog} {tags : List String} :
    0 < repeatedTags tags + (foreignTags catalog tags).card
      ↔ ¬ tags.Nodup ∨ ∃ tag ∈ tags, ¬ Listed catalog tag := by
  rw [Nat.add_pos_iff_pos_or_pos, Nat.pos_iff_ne_zero, Ne, repeatedTags_eq_zero_iff,
    Finset.card_pos, Finset.nonempty_iff_ne_empty, Ne, foreignTags_eq_empty_iff]
  simp only [not_forall, exists_prop]

/-- **There is a wrong tag exactly when their number is not zero.** -/
theorem hasWrongTag_iff {catalog : GroupCatalog} {rules : Rules} :
    HasWrongTag catalog rules ↔ 0 < wrongTags catalog rules := by
  rw [wrongTags, List.sum_pos_iff_exists_pos_nat, Rules.allKeys]
  simp only [List.mem_map, exists_exists_and_eq_and, wrong_iff, List.mem_flatMap]
  constructor
  · rintro ⟨rule, hrule, key, hkey, hwrong⟩
    exact ⟨key, ⟨rule, hrule, hkey⟩, hwrong⟩
  · rintro ⟨key, ⟨rule, hrule, hkey⟩, hwrong⟩
    exact ⟨rule, hrule, key, hkey, hwrong⟩

/-- The number of wrong tags depends on nothing but the rules and which tags the groups list. -/
theorem wrongTags_congr {catalog catalog' : GroupCatalog} {rules rules' : Rules}
    (htags : ∀ tag, Listed catalog' tag ↔ Listed catalog tag)
    (hrules : rules'.rules = rules.rules) :
    wrongTags catalog' rules' = wrongTags catalog rules := by
  have hforeign (tags : List String) : foreignTags catalog' tags = foreignTags catalog tags :=
    Finset.filter_congr fun tag _ => not_congr (htags tag)
  simp only [wrongTags, Rules.allKeys, hrules, hforeign]

end Check

namespace Command

open Check (HasWrongTag Listed wrongTags)

/-! ## The outcome of a check -/

/-- **The errors among the findings are the wrong tags.** -/
theorem errorCount_findings (catalog : GroupCatalog) (rules : Rules) :
    errorCount (findings catalog rules) = wrongTags catalog rules := by
  rw [errorCount, findings, List.countP_append, Check.countP_groups, Check.countP_content,
    Nat.zero_add]

/-- **What a check of groups and rules amounts to.** -/
structure Outcome.Checks (outcome : Outcome) (catalog : GroupCatalog) (rules : Rules) : Prop where
  /-- All findings are shown, those about groups first, each on a line of its own. -/
  output : outcome.output = String.join
    ((Check.groups catalog ++ Check.content catalog rules).map fun finding => finding.text ++ "\n")
  /-- The check fails when there is a wrong tag. -/
  fails : outcome.status = 3 ↔ HasWrongTag catalog rules
  /-- It succeeds otherwise. -/
  succeeds : outcome.status = 0 ↔ ¬ HasWrongTag catalog rules
  /-- A failure tells the number of wrong tags. -/
  message : outcome.status = 3 → outcome.failure.map Failure.message
    = some (toString (wrongTags catalog rules) ++ " content errors found")

section Decided

variable {world : World} {groupsPath contentPath : String}

/-- A check without groups ends at once. -/
theorem write_of_groups_error {error : Error}
    (hgroups : GroupCatalog.load world groupsPath = .error error) :
    (checkFiles world groupsPath contentPath).write .accepting = ⟨"", some (.groups error)⟩ := by
  rw [checkFiles, loadGroups, hgroups]
  rfl

/-- A check without content ends at once. -/
theorem write_of_content_error {catalog : GroupCatalog} {error : Error}
    (hgroups : GroupCatalog.load world groupsPath = .ok catalog)
    (hcontent : Snapshot.load world contentPath = .error error) :
    (checkFiles world groupsPath contentPath).write .accepting = ⟨"", some (.content error)⟩ := by
  rw [checkFiles, loadGroups, loadContent, hgroups, hcontent]
  rfl

/-- A check that loads both shows what it finds and tells the number of wrong tags. -/
theorem write_of_ok {catalog : GroupCatalog} {snapshot : Snapshot}
    (hgroups : GroupCatalog.load world groupsPath = .ok catalog)
    (hcontent : Snapshot.load world contentPath = .ok snapshot) :
    (checkFiles world groupsPath contentPath).write .accepting
      = ⟨String.join ((Check.groups catalog ++ Check.content catalog snapshot.rules).map
            (·.text ++ "\n")),
          if wrongTags catalog snapshot.rules = 0 then none
          else some (.findings (wrongTags catalog snapshot.rules))⟩ := by
  have hreport : checkFiles world groupsPath contentPath
      = checkReport (findings catalog snapshot.rules) := by
    rw [checkFiles, loadGroups, loadContent, hgroups, hcontent]
    rfl
  rw [hreport, checkReport, errorCount_findings, Report.write, Help.joinLines, List.map_map]
  rfl

/-- Such a check ends with zero or three. -/
theorem status_of_ok {catalog : GroupCatalog} {snapshot : Snapshot}
    (hgroups : GroupCatalog.load world groupsPath = .ok catalog)
    (hcontent : Snapshot.load world contentPath = .ok snapshot) :
    ((checkFiles world groupsPath contentPath).write .accepting).status
      = if wrongTags catalog snapshot.rules = 0 then 0 else 3 := by
  rw [write_of_ok hgroups hcontent, Outcome.status]
  dsimp only
  split <;> rfl

/-- A check that finds its files does just that. -/
theorem checks_of_ok {catalog : GroupCatalog} {snapshot : Snapshot}
    (hgroups : GroupCatalog.load world groupsPath = .ok catalog)
    (hcontent : Snapshot.load world contentPath = .ok snapshot) :
    ((checkFiles world groupsPath contentPath).write .accepting).Checks catalog snapshot.rules where
  output := by rw [write_of_ok hgroups hcontent]
  fails := by
    rw [status_of_ok hgroups hcontent, Check.hasWrongTag_iff, Nat.pos_iff_ne_zero]
    split <;> simp [*]
  succeeds := by
    rw [status_of_ok hgroups hcontent, Check.hasWrongTag_iff, Nat.pos_iff_ne_zero]
    split <;> simp [*]
  message := by
    rw [status_of_ok hgroups hcontent, write_of_ok hgroups hcontent]
    split
    · exact fun h => absurd h (by decide)
    · exact fun _ => rfl

/-- A check ends with one exactly when the groups cannot be loaded. -/
theorem status_eq_one_iff :
    ((checkFiles world groupsPath contentPath).write .accepting).status = 1
      ↔ ∃ error, GroupCatalog.load world groupsPath = .error error := by
  constructor
  · intro hstatus
    cases hgroups : GroupCatalog.load world groupsPath with
    | error error => exact ⟨error, rfl⟩
    | ok catalog =>
      cases hcontent : Snapshot.load world contentPath with
      | error error =>
        rw [write_of_content_error hgroups hcontent] at hstatus
        cases hstatus
      | ok snapshot =>
        rw [status_of_ok hgroups hcontent] at hstatus
        split at hstatus <;> cases hstatus
  · rintro ⟨error, hgroups⟩
    rw [write_of_groups_error hgroups]
    rfl

/-- A check ends with two exactly when the groups can be loaded and the content cannot. -/
theorem status_eq_two_iff :
    ((checkFiles world groupsPath contentPath).write .accepting).status = 2
      ↔ (∃ catalog, GroupCatalog.load world groupsPath = .ok catalog)
        ∧ ∃ error, Snapshot.load world contentPath = .error error := by
  constructor
  · intro hstatus
    cases hgroups : GroupCatalog.load world groupsPath with
    | error error =>
      rw [write_of_groups_error hgroups] at hstatus
      cases hstatus
    | ok catalog =>
      cases hcontent : Snapshot.load world contentPath with
      | error error => exact ⟨⟨catalog, rfl⟩, error, rfl⟩
      | ok snapshot =>
        rw [status_of_ok hgroups hcontent] at hstatus
        split at hstatus <;> cases hstatus
  · rintro ⟨⟨catalog, hgroups⟩, error, hcontent⟩
    rw [write_of_content_error hgroups hcontent]
    rfl

end Decided

/-- The status and the output of a check tell which of its files cannot be loaded; a check that
loads both **shows all findings and fails for the wrong tags**, telling how many there are. What
could not be loaded and which groups share names or tags has no part in it: another check ends
alike, if only its rules are the same and its groups list the same tags. -/
theorem checkFiles_decided (world : World) (groupsPath contentPath : String) :
    let outcome := (checkFiles world groupsPath contentPath).write .accepting
    (outcome.status = 1 ∧ outcome.output = ""
        ↔ ∃ error, GroupCatalog.load world groupsPath = .error error)
      ∧ (outcome.status = 2 ∧ outcome.output = ""
        ↔ (∃ catalog, GroupCatalog.load world groupsPath = .ok catalog)
          ∧ ∃ error, Snapshot.load world contentPath = .error error)
      ∧ ∀ catalog snapshot, GroupCatalog.load world groupsPath = .ok catalog →
        Snapshot.load world contentPath = .ok snapshot →
          outcome.Checks catalog snapshot.rules
          ∧ ∀ world' groupsPath' contentPath' catalog' snapshot',
            GroupCatalog.load world' groupsPath' = .ok catalog' →
            Snapshot.load world' contentPath' = .ok snapshot' →
            (∀ tag, Listed catalog' tag ↔ Listed catalog tag) →
            snapshot'.rules.rules = snapshot.rules.rules →
              ((checkFiles world' groupsPath' contentPath').write .accepting).status
                = outcome.status := by
  intro outcome
  refine ⟨?_, ?_, fun catalog snapshot hgroups hcontent => ⟨checks_of_ok hgroups hcontent, ?_⟩⟩
  · rw [status_eq_one_iff, and_iff_left_iff_imp]
    rintro ⟨error, hgroups⟩
    exact congrArg Outcome.output (write_of_groups_error hgroups)
  · rw [status_eq_two_iff, and_iff_left_iff_imp]
    rintro ⟨⟨catalog, hgroups⟩, error, hcontent⟩
    exact congrArg Outcome.output (write_of_content_error hgroups hcontent)
  · intro world' groupsPath' contentPath' catalog' snapshot' hgroups' hcontent' htags hrules
    rw [status_of_ok hgroups' hcontent', Check.wrongTags_congr htags hrules]
    exact (status_of_ok hgroups hcontent).symm

/-- The groups of the mixed content. -/
def mixedGroups : GroupCatalog :=
  ⟨[("main", { name := "Main", tags := ["a"] })], List.pairwise_singleton ..⟩

theorem ofYaml_groupsText : GroupCatalog.ofYaml Snapshot.groupsText = .ok mixedGroups :=
  eq_ok_of_toOption (by decide +kernel)

/-- One of the two tags of the error key that is loaded there is listed by no group, so the check of
that content fails. -/
theorem checkFiles_decided_mixedContent : ∃ snapshot,
    GroupCatalog.load Snapshot.mixedContent "groups.yaml" = .ok mixedGroups
      ∧ Snapshot.load Snapshot.mixedContent "." = .ok snapshot
      ∧ ((checkFiles Snapshot.mixedContent "groups.yaml" ".").write .accepting).Checks mixedGroups
        snapshot.rules
      ∧ HasWrongTag mixedGroups snapshot.rules
      ∧ ((checkFiles Snapshot.mixedContent "groups.yaml" ".").write .accepting).status = 3 := by
  have hgroups : GroupCatalog.load Snapshot.mixedContent "groups.yaml" = .ok mixedGroups := by
    have hpath : "groups.yaml".isEmpty = false ∧ "groups.yaml".toList.contains '\x00' = false
        ∧ Path.fits "groups.yaml" = true ∧ Path.steps "groups.yaml" = ["groups.yaml"] := by decide
    have hname : "groups.yaml" ≠ "." ∧ "groups.yaml" ≠ ".."
        ∧ "groups.yaml".utf8ByteSize ≤ World.maxName := by decide
    have hnode : Snapshot.mixedContent.node "groups.yaml"
        = .ok (.file (Text.encode Snapshot.groupsText)) :=
      World.node_in_root (Snapshot.mixedContentOf_root _) rfl hpath hname rfl (by simp)
    rw [GroupCatalog.load, World.readText, World.readBytes, hnode]
    simp only [bind, Except.bind, Text.decode?_encode, pure, Except.pure]
    exact ofYaml_groupsText
  obtain ⟨snapshot, hcontent, hrule⟩ := Snapshot.load_mixedContentOf _
    (Text.decode?_encode Snapshot.labelsText) Snapshot.ofYaml_labelsText
  obtain ⟨-, -, hdecided⟩ := checkFiles_decided Snapshot.mixedContent "groups.yaml" "."
  have hchecks := (hdecided mixedGroups snapshot hgroups hcontent).1
  have hwrong : HasWrongTag mixedGroups snapshot.rules := by
    have hmem := (Table.get?_eq_some_iff ..).1 hrule
    refine ⟨_, List.mem_map.2 ⟨_, hmem, rfl⟩, _, List.mem_singleton_self _, .inr ⟨"b", ?_, ?_⟩⟩
    · show "b" ∈ ["a", "b"]
      decide
    · decide
  exact ⟨snapshot, hgroups, hcontent, hchecks, hwrong, hchecks.fails.2 hwrong⟩

end Command

end Rulebook
