import Rulebook.Proofs.CheckOutcome

/-!
# What the check of the rules finds

What may be wrong with a rule or one of its error keys is a **flaw**: a text that is blank, an error
key that is missing altogether, a tag that stands before in the same list, a tag that no group
lists. Which flaws a rule has is said without a check (`KeyFlaw.Of`, `RuleFlaw.Of`), and so is the
order in which they are listed. A flaw together with the name of its rule is a **defect**.

The check finds every defect once and nothing else (`content_exact`). It keeps the tags that it has
seen and asks about groups only for a new one; so a tag at a position has one flaw at most, which
depends on the positions before. As the defects of a rule are told from the rule and from which
tags are listed, they are the same beside any other rules and with any other groups that list the
same tags.
-/

namespace Rulebook.Check

variable {catalog : GroupCatalog} {rules : Rules} {rule : Rule} {key : ErrorKey}

/-! ## Texts that should not be blank -/

/-- Whether a text has blank characters only. -/
def Blank (text : String) : Prop := ∀ c ∈ text.toList, Text.isBlank c = true

theorem allBlank_iff {text : String} : Text.allBlank text = true ↔ Blank text := List.all_eq_true

instance (text : String) : Decidable (Blank text) := decidable_of_iff _ allBlank_iff

/-- **A text of a rule** that should not be blank. -/
inductive RuleText where
  /-- The name of the rule. -/
  | name
  /-- Its article in the knowledge base. -/
  | nodeId
  /-- The product it is about. -/
  | productCode
  /-- The module that implements it. -/
  | pythonModule
  /-- Further reading. -/
  | moreInfo
  /-- The reason. -/
  | reason
  /-- The resolution. -/
  | resolution
  /-- The longer description. -/
  | summary
deriving DecidableEq, Repr

namespace RuleText

/-- The texts in the order in which they are checked. -/
def all : List RuleText :=
  [name, nodeId, productCode, pythonModule, moreInfo, reason, resolution, summary]

/-- What findings call a text. -/
def label : RuleText → String
  | name => "attribute 'name'"
  | nodeId => "attribute 'node_id'"
  | productCode => "attribute 'product_code'"
  | pythonModule => "attribute 'python_module'"
  | moreInfo => "content file 'more_info.md'"
  | reason => "content file 'reason.md'"
  | resolution => "content file 'resolution.md'"
  | summary => "content file 'summary.md'"

/-- The text itself. -/
def value (rule : Rule) : RuleText → String
  | name => rule.plugin.name
  | nodeId => rule.plugin.nodeId
  | productCode => rule.plugin.productCode
  | pythonModule => rule.plugin.pythonModule
  | moreInfo => rule.texts.moreInfo
  | reason => rule.texts.reason
  | resolution => rule.texts.resolution
  | summary => rule.texts.summary

theorem mem_all (text : RuleText) : text ∈ all := by cases text <;> decide

end RuleText

/-- **A text of an error key** that should not be blank. -/
inductive KeyText where
  /-- The short description. -/
  | generic
  /-- When the problem appears. -/
  | condition
  /-- What the problem is. -/
  | description
  /-- The label of how bad it is. -/
  | impact
  /-- When it was published. -/
  | publishDate
  /-- Whether it is in use. -/
  | status
deriving DecidableEq, Repr

namespace KeyText

/-- The texts in the order in which they are checked. -/
def all : List KeyText := [generic, condition, description, impact, publishDate, status]

/-- What findings call a text. -/
def label : KeyText → String
  | generic => "content file 'generic.md'"
  | condition => "attribute 'condition'"
  | description => "attribute 'description'"
  | impact => "attribute 'impact'"
  | publishDate => "attribute 'publish_date'"
  | status => "attribute 'status'"

/-- The text itself. -/
def value (key : ErrorKey) : KeyText → String
  | generic => key.texts.generic
  | condition => key.metadata.condition
  | description => key.metadata.description
  | impact => key.metadata.impact.name
  | publishDate => key.metadata.publishDate
  | status => key.metadata.status

theorem mem_all (text : KeyText) : text ∈ all := by cases text <;> decide

end KeyText

/-! ## Flaws -/

/-- **What may be wrong with an error key.** -/
inductive KeyFlaw where
  /-- A text is blank. -/
  | blank (text : KeyText)
  /-- A tag stands before in the list. -/
  | repeatedTag (position : Nat) (tag : String)
  /-- A tag is of no group. -/
  | unknownTag (position : Nat) (tag : String)
deriving DecidableEq, Repr

namespace KeyFlaw

/-- Where a flaw stands among those of one error key: blank texts first, then tags by position. -/
def rank : KeyFlaw → Nat
  | blank text => KeyText.all.idxOf text
  | repeatedTag position _ => KeyText.all.length + position
  | unknownTag position _ => KeyText.all.length + position

/-- What is reported of a flaw. -/
def finding (subject : String) : KeyFlaw → Finding
  | blank text => ⟨.warning, subject, text.label ++ " is empty"⟩
  | repeatedTag _ tag => ⟨.error, subject, "duplicate tag '" ++ tag ++ "'"⟩
  | unknownTag _ tag => ⟨.error, subject, "invalid tag '" ++ tag ++ "' is not defined by any group"⟩

/-- **The flaws of an error key.** -/
inductive Of (catalog : GroupCatalog) (key : ErrorKey) : KeyFlaw → Prop
  /-- A text of it is blank. -/
  | blank {text : KeyText} (h : Blank (text.value key)) : Of catalog key (blank text)
  /-- One of its tags is also at an earlier position. -/
  | repeatedTag {position earlier : Nat} {tag : String}
    (h : key.metadata.tags[position]? = some tag) (hlt : earlier < position)
    (hearlier : key.metadata.tags[earlier]? = some tag) : Of catalog key (repeatedTag position tag)
  /-- One of its tags is at no earlier position and no group lists it. -/
  | unknownTag {position : Nat} {tag : String} (h : key.metadata.tags[position]? = some tag)
    (hfirst : ∀ earlier < position, key.metadata.tags[earlier]? ≠ some tag)
    (hlisted : ¬ Listed catalog tag) : Of catalog key (unknownTag position tag)

/-- **Which tags are listed is all that matters of the groups.** -/
theorem Of.of_listed {other : GroupCatalog} (hlisted : ∀ tag, Listed catalog tag ↔ Listed other tag)
    {flaw : KeyFlaw} (h : Of catalog key flaw) : Of other key flaw := by
  cases h with
  | blank h => exact .blank h
  | repeatedTag h hlt hearlier => exact .repeatedTag h hlt hearlier
  | unknownTag h hfirst hnot => exact .unknownTag h hfirst fun htag => hnot ((hlisted _).2 htag)

end KeyFlaw

/-- **What may be wrong with a rule.** -/
inductive RuleFlaw where
  /-- A text is blank. -/
  | blank (text : RuleText)
  /-- There is no error key. -/
  | noErrorKey
  /-- Something is wrong with an error key. -/
  | errorKey (name : String) (flaw : KeyFlaw)
deriving DecidableEq, Repr

namespace RuleFlaw

/-- Where a flaw stands among those of one rule, error keys being last. -/
def rank : RuleFlaw → Nat
  | blank text => RuleText.all.idxOf text
  | noErrorKey => RuleText.all.length
  | errorKey _ _ => RuleText.all.length + 1

/-- **The order of the flaws of a rule**: those of the rule itself, then those of its error keys in
the order of their names. -/
inductive Before : RuleFlaw → RuleFlaw → Prop
  /-- One of the two is not about an error key. -/
  | rank {flaw other : RuleFlaw} (h : flaw.rank < other.rank) : Before flaw other
  /-- The two are about different error keys. -/
  | name {name other : String} {flaw mate : KeyFlaw} (h : name < other) :
    Before (errorKey name flaw) (errorKey other mate)
  /-- The two are about one error key. -/
  | key {name : String} {flaw mate : KeyFlaw} (h : flaw.rank < mate.rank) :
    Before (errorKey name flaw) (errorKey name mate)

theorem Before.irrefl (flaw : RuleFlaw) : ¬ Before flaw flaw
  | .rank h => Nat.lt_irrefl _ h
  | .name h => String.lt_irrefl _ h
  | .key h => Nat.lt_irrefl _ h

theorem Before.trans {flaw other last : RuleFlaw} (h : Before flaw other)
    (h' : Before other last) : Before flaw last := by
  cases h with
  | rank h =>
    cases h' with
    | rank h' => exact .rank (Nat.lt_trans h h')
    | name _ => exact .rank h
    | key _ => exact .rank h
  | name h =>
    cases h' with
    | rank h' => exact .rank h'
    | name h' => exact .name (String.lt_trans h h')
    | key _ => exact .name h
  | key h =>
    cases h' with
    | rank h' => exact .rank h'
    | name h' => exact .name h'
    | key h' => exact .key (Nat.lt_trans h h')

/-- What is reported of a flaw. -/
def finding (rule : String) : RuleFlaw → Finding
  | blank text => ⟨.warning, "rule '" ++ rule ++ "'", text.label ++ " is empty"⟩
  | noErrorKey => ⟨.warning, "rule '" ++ rule ++ "'", "rule contains no error key"⟩
  | errorKey name flaw => flaw.finding ("error key '" ++ rule ++ "|" ++ name ++ "'")

/-- **The flaws of a rule.** -/
inductive Of (catalog : GroupCatalog) (rule : Rule) : RuleFlaw → Prop
  /-- A text of it is blank. -/
  | blank {text : RuleText} (h : Blank (text.value rule)) : Of catalog rule (blank text)
  /-- It has no error key. -/
  | noErrorKey (h : ∀ name, rule.errorKeys.get? name = none) : Of catalog rule noErrorKey
  /-- One of its error keys has a flaw. -/
  | errorKey {name : String} {key : ErrorKey} {flaw : KeyFlaw}
    (hkey : rule.errorKeys.get? name = some key) (h : flaw.Of catalog key) :
    Of catalog rule (errorKey name flaw)

theorem Of.of_listed {other : GroupCatalog} (hlisted : ∀ tag, Listed catalog tag ↔ Listed other tag)
    {flaw : RuleFlaw} (h : Of catalog rule flaw) : Of other rule flaw := by
  cases h with
  | blank h => exact .blank h
  | noErrorKey h => exact .noErrorKey h
  | errorKey hkey h => exact .errorKey hkey (h.of_listed hlisted)

end RuleFlaw

/-- **Something that is wrong with a rule of some name.** -/
structure Defect where
  /-- The name of the rule. -/
  rule : String
  /-- What is wrong with it. -/
  flaw : RuleFlaw
deriving DecidableEq, Repr

namespace Defect

/-- **The order of defects**: rules in the order of their names. -/
def Before (defect other : Defect) : Prop :=
  defect.rule < other.rule ∨ defect.rule = other.rule ∧ defect.flaw.Before other.flaw

theorem Before.irrefl (defect : Defect) : ¬ Before defect defect
  | .inl h => String.lt_irrefl _ h
  | .inr h => RuleFlaw.Before.irrefl _ h.2

theorem Before.trans {defect other last : Defect} (h : Before defect other)
    (h' : Before other last) : Before defect last := by
  rcases h with h | ⟨heq, h⟩
  · rcases h' with h' | ⟨heq', -⟩
    · exact .inl (String.lt_trans h h')
    · exact .inl (heq' ▸ h)
  · rcases h' with h' | ⟨heq', h'⟩
    · exact .inl (heq ▸ h')
    · exact .inr ⟨heq.trans heq', h.trans h'⟩

/-- What is reported of a defect. -/
def finding (defect : Defect) : Finding := defect.flaw.finding defect.rule

/-- **The defects of rules.** -/
def Of (catalog : GroupCatalog) (rules : Rules) (defect : Defect) : Prop :=
  ∃ rule, rules.rules.get? defect.rule = some rule ∧ defect.flaw.Of catalog rule

end Defect

/-! ## Listing the flaws -/

/-- What is wrong with the tag at a position of a list. -/
def tagFlaw? (catalog : GroupCatalog) (tags : List String) (entry : String × Nat) :
    Option KeyFlaw :=
  if entry.1 ∈ tags.take entry.2 then some (.repeatedTag entry.2 entry.1)
  else if Listed catalog entry.1 then none
  else some (.unknownTag entry.2 entry.1)

/-- The flaws of an error key in order. -/
def keyFlaws (catalog : GroupCatalog) (key : ErrorKey) : List KeyFlaw :=
  (KeyText.all.filter fun text => Text.allBlank (text.value key)).map .blank ++
    key.metadata.tags.zipIdx.filterMap (tagFlaw? catalog key.metadata.tags)

/-- The flaws of a rule in order. -/
def ruleFlaws (catalog : GroupCatalog) (rule : Rule) : List RuleFlaw :=
  (RuleText.all.filter fun text => Text.allBlank (text.value rule)).map .blank ++
    (if rule.errorKeys.entries.isEmpty then [.noErrorKey] else []) ++
    rule.errorKeys.entries.flatMap fun entry =>
      (keyFlaws catalog entry.2).map (.errorKey entry.1)

/-- **The defects of rules in order.** -/
def defects (catalog : GroupCatalog) (rules : Rules) : List Defect :=
  rules.rules.entries.flatMap fun entry => (ruleFlaws catalog entry.2).map (.mk entry.1)

/-! ### The findings are those of the flaws -/

/-- What findings are made of some members of a list. -/
theorem flatMap_ite {α β : Type} (list : List α) (keep : α → Bool) (make : α → β) :
    (list.flatMap fun a => if keep a then [make a] else []) = (list.filter keep).map make := by
  induction list with
  | nil => rfl
  | cons a rest ih => cases h : keep a <;> simp [ih, h]

/-- **The tags that were seen are those before.** -/
theorem checkKeyTags_eq (subject : String) {seen before : List String}
    (hseen : ∀ tag, tag ∈ seen ↔ tag ∈ before) (tags : List String) :
    checkKeyTags catalog.tags subject seen tags
      = ((tags.zipIdx before.length).filterMap (tagFlaw? catalog (before ++ tags))).map
          (·.finding subject) := by
  induction tags generalizing seen before with
  | nil => rfl
  | cons tag rest ih =>
    have hrest := @ih (tag :: seen) (before ++ [tag]) fun other => by
      simp [hseen, or_comm]
    rw [List.append_assoc, List.singleton_append, List.length_append,
      List.length_singleton] at hrest
    rw [checkKeyTags, hrest, List.zipIdx_cons, List.filterMap_cons, tagFlaw?, List.take_left]
    by_cases hold : tag ∈ before
    · simp [hseen, hold, KeyFlaw.finding]
    · by_cases hlisted : Listed catalog tag
      · simp [hseen, hold, mem_tags_iff, hlisted]
      · simp [hseen, hold, mem_tags_iff, hlisted, KeyFlaw.finding]

theorem errorKey_eq (subject : String) (key : ErrorKey) :
    errorKey catalog.tags subject key = (keyFlaws catalog key).map (·.finding subject) := by
  have hblank : errorKey catalog.tags subject key
      = (KeyText.all.flatMap fun text => blank subject text.label (text.value key))
        ++ checkKeyTags catalog.tags subject [] key.metadata.tags := by
    simp only [errorKey, KeyText.all, List.flatMap_cons, List.flatMap_nil, List.append_nil,
      List.append_assoc]
    rfl
  have htags := @checkKeyTags_eq catalog subject [] [] (fun _ => Iff.rfl) key.metadata.tags
  rw [hblank, htags, keyFlaws, List.map_append, List.map_map]
  exact congrArg (· ++ _) (flatMap_ite ..)

theorem rule_eq (name : String) (found : Rule) :
    Check.rule catalog.tags name found = (ruleFlaws catalog found).map (·.finding name) := by
  have hblank : Check.rule catalog.tags name found
      = (RuleText.all.flatMap fun text =>
          blank ("rule '" ++ name ++ "'") text.label (text.value found))
        ++ (if found.errorKeys.entries.isEmpty then
            [⟨.warning, "rule '" ++ name ++ "'", "rule contains no error key"⟩] else [])
        ++ found.errorKeys.entries.flatMap fun entry =>
            errorKey catalog.tags ("error key '" ++ name ++ "|" ++ entry.1 ++ "'") entry.2 := by
    simp only [Check.rule, RuleText.all, List.flatMap_cons, List.flatMap_nil, List.append_nil,
      List.append_assoc]
    rfl
  rw [hblank, ruleFlaws, List.map_append, List.map_append, List.map_map, List.map_flatMap]
  refine congrArg₂ (· ++ ·) (congrArg₂ (· ++ ·) (flatMap_ite ..) ?_) ?_
  · split <;> rfl
  · refine List.flatMap_congr fun entry _ => ?_
    rw [errorKey_eq, List.map_map]
    rfl

/-- The check reports the defects. -/
theorem content_eq (catalog : GroupCatalog) (rules : Rules) :
    content catalog rules = (defects catalog rules).map Defect.finding := by
  rw [content, defects, List.map_flatMap]
  refine List.flatMap_congr fun entry _ => (rule_eq entry.1 entry.2).trans ?_
  rw [List.map_map]
  rfl

/-! ### Every flaw is listed once, in order -/

/-- A tag is among the first ones when it is at one of their positions. -/
theorem mem_take_iff {tags : List String} {tag : String} {position : Nat} :
    tag ∈ tags.take position ↔ ∃ earlier < position, tags[earlier]? = some tag := by
  simp only [List.mem_iff_getElem?, List.getElem?_take]
  refine exists_congr fun earlier => ?_
  by_cases hlt : earlier < position <;> simp [hlt]

theorem tagFlaw?_eq_some_iff {tags : List String} {entry : String × Nat} {flaw : KeyFlaw} :
    tagFlaw? catalog tags entry = some flaw
      ↔ (entry.1 ∈ tags.take entry.2 ∧ .repeatedTag entry.2 entry.1 = flaw)
        ∨ (¬ entry.1 ∈ tags.take entry.2 ∧ ¬ Listed catalog entry.1
          ∧ .unknownTag entry.2 entry.1 = flaw) := by
  unfold tagFlaw?
  split_ifs <;> simp [*]

theorem rank_of_tagFlaw? {tags : List String} {entry : String × Nat} {flaw : KeyFlaw}
    (h : tagFlaw? catalog tags entry = some flaw) :
    flaw.rank = KeyText.all.length + entry.2 := by
  rcases tagFlaw?_eq_some_iff.1 h with ⟨-, rfl⟩ | ⟨-, -, rfl⟩ <;> rfl

/-- **The flaws of an error key are listed.** -/
theorem mem_keyFlaws_iff {flaw : KeyFlaw} : flaw ∈ keyFlaws catalog key ↔ flaw.Of catalog key := by
  rw [keyFlaws, List.mem_append, List.mem_map, List.mem_filterMap]
  constructor
  · rintro (⟨text, h, rfl⟩ | ⟨⟨tag, position⟩, hmem, h⟩)
    · exact .blank (allBlank_iff.1 (List.mem_filter.1 h).2)
    · have htag : key.metadata.tags[position]? = some tag := List.mem_zipIdx_iff_getElem?.1 hmem
      rcases tagFlaw?_eq_some_iff.1 h with ⟨hold, rfl⟩ | ⟨hnew, hlisted, rfl⟩
      · obtain ⟨earlier, hlt, hearlier⟩ := mem_take_iff.1 hold
        exact .repeatedTag htag hlt hearlier
      · refine .unknownTag htag (fun earlier hlt h => hnew ?_) hlisted
        exact mem_take_iff.2 ⟨earlier, hlt, h⟩
  · rintro (@⟨text, h⟩ | @⟨position, earlier, tag, htag, hlt, hearlier⟩
      | @⟨position, tag, htag, hfirst, hlisted⟩)
    · exact .inl ⟨text, List.mem_filter.2 ⟨text.mem_all, allBlank_iff.2 h⟩, rfl⟩
    · refine .inr ⟨(tag, position), List.mem_zipIdx_iff_getElem?.2 htag, ?_⟩
      exact tagFlaw?_eq_some_iff.2 (.inl ⟨mem_take_iff.2 ⟨earlier, hlt, hearlier⟩, rfl⟩)
    · refine .inr ⟨(tag, position), List.mem_zipIdx_iff_getElem?.2 htag, ?_⟩
      refine tagFlaw?_eq_some_iff.2 (.inr ⟨fun hold => ?_, hlisted, rfl⟩)
      obtain ⟨earlier, hlt, h⟩ := mem_take_iff.1 hold
      exact hfirst earlier hlt h

/-- **They are listed in order.** -/
theorem pairwise_keyFlaws (catalog : GroupCatalog) (key : ErrorKey) :
    (keyFlaws catalog key).Pairwise fun flaw other => flaw.rank < other.rank := by
  refine List.pairwise_append.2 ⟨?_, ?_, ?_⟩
  · have hall : KeyText.all.Pairwise fun text other =>
        KeyText.all.idxOf text < KeyText.all.idxOf other := by decide
    exact List.pairwise_map.2 (hall.filter _)
  · have hpositions : (key.metadata.tags.zipIdx.map Prod.snd).Pairwise (· < ·) := by
      rw [List.zipIdx_map_snd]
      exact List.pairwise_lt_range'
    refine List.pairwise_filterMap.2 ((List.pairwise_map.1 hpositions).imp ?_)
    intro entry other hlt flaw hflaw mate hmate
    rw [rank_of_tagFlaw? hflaw, rank_of_tagFlaw? hmate]
    exact Nat.add_lt_add_left hlt _
  · intro flaw hflaw other hother
    obtain ⟨text, -, rfl⟩ := List.mem_map.1 hflaw
    obtain ⟨entry, -, hentry⟩ := List.mem_filterMap.1 hother
    rw [rank_of_tagFlaw? hentry]
    exact Nat.lt_add_right _ (List.idxOf_lt_length_of_mem text.mem_all)

section Tables

variable {V α β : Type} {list : V → List α} {make : String → α → β}

/-- What is made of the entries of a table is made of what it holds under some name. -/
theorem mem_flatMap_entries {table : Table V} {made : β} :
    (made ∈ table.entries.flatMap fun entry => (list entry.2).map (make entry.1))
      ↔ ∃ name value, table.get? name = some value ∧ ∃ a ∈ list value, make name a = made := by
  simp only [List.mem_flatMap, List.mem_map, Prod.exists, Table.get?_eq_some_iff]

/-- It is in order if it is for each name, and behind it for later names. -/
theorem pairwise_flatMap_entries {r : α → α → Prop} {s : β → β → Prop} (table : Table V)
    (hlist : ∀ value, (list value).Pairwise r)
    (hname : ∀ {name other a b}, name < other → s (make name a) (make other b))
    (hmake : ∀ {name a b}, r a b → s (make name a) (make name b)) :
    (table.entries.flatMap fun entry => (list entry.2).map (make entry.1)).Pairwise s := by
  refine List.pairwise_flatMap.2 ⟨fun entry _ => ?_, table.ascending.imp ?_⟩
  · exact List.pairwise_map.2 ((hlist entry.2).imp hmake)
  · intro entry other hlt made hmade mate hmate
    obtain ⟨a, -, rfl⟩ := List.mem_map.1 hmade
    obtain ⟨b, -, rfl⟩ := List.mem_map.1 hmate
    exact hname hlt

end Tables

theorem entries_isEmpty_iff {V : Type} {table : Table V} :
    table.entries.isEmpty = true ↔ ∀ name, table.get? name = none := by
  rw [List.isEmpty_iff, List.eq_nil_iff_forall_not_mem]
  simp only [Option.eq_none_iff_forall_ne_some, ne_eq, Table.get?_eq_some_iff, Prod.forall]

/-- **The flaws of a rule are listed.** -/
theorem mem_ruleFlaws_iff {flaw : RuleFlaw} :
    flaw ∈ ruleFlaws catalog rule ↔ flaw.Of catalog rule := by
  rw [ruleFlaws, List.mem_append, List.mem_append, List.mem_map, List.mem_ite_nil_right,
    List.mem_singleton, mem_flatMap_entries, entries_isEmpty_iff]
  constructor
  · rintro ((⟨text, h, rfl⟩ | ⟨hnone, rfl⟩) | ⟨name, key, hkey, flaw, h, rfl⟩)
    · exact .blank (allBlank_iff.1 (List.mem_filter.1 h).2)
    · exact .noErrorKey hnone
    · exact .errorKey hkey (mem_keyFlaws_iff.1 h)
  · rintro (@⟨text, h⟩ | hnone | @⟨name, key, flaw, hkey, h⟩)
    · exact .inl (.inl ⟨text, List.mem_filter.2 ⟨text.mem_all, allBlank_iff.2 h⟩, rfl⟩)
    · exact .inl (.inr ⟨hnone, rfl⟩)
    · exact .inr ⟨name, key, hkey, flaw, mem_keyFlaws_iff.2 h, rfl⟩

/-- **They are listed in order.** -/
theorem pairwise_ruleFlaws (catalog : GroupCatalog) (rule : Rule) :
    (ruleFlaws catalog rule).Pairwise RuleFlaw.Before := by
  have hblank : ∀ flaw ∈ (RuleText.all.filter fun text => Text.allBlank (text.value rule)).map
      RuleFlaw.blank, flaw.rank < RuleText.all.length := by
    intro flaw hflaw
    obtain ⟨text, -, rfl⟩ := List.mem_map.1 hflaw
    exact List.idxOf_lt_length_of_mem text.mem_all
  have hnone : ∀ flaw ∈ (if rule.errorKeys.entries.isEmpty then [RuleFlaw.noErrorKey] else []),
      flaw.rank = RuleText.all.length := by
    intro flaw hflaw
    rw [List.mem_ite_nil_right, List.mem_singleton] at hflaw
    rw [hflaw.2]
    rfl
  refine List.pairwise_append.2 ⟨List.pairwise_append.2 ⟨?_, ?_, ?_⟩, ?_, ?_⟩
  · have hall : RuleText.all.Pairwise fun text other =>
        RuleText.all.idxOf text < RuleText.all.idxOf other := by decide
    exact List.pairwise_map.2 ((hall.filter _).imp fun h => .rank h)
  · split
    · exact List.pairwise_singleton ..
    · exact .nil
  · intro flaw hflaw other hother
    exact .rank (hnone other hother ▸ hblank flaw hflaw)
  · exact pairwise_flatMap_entries _ (pairwise_keyFlaws catalog) .name .key
  · intro flaw hflaw other hother
    obtain ⟨name, key, -, mate, -, rfl⟩ := mem_flatMap_entries.1 hother
    refine .rank (Nat.lt_succ_of_le ?_)
    rcases List.mem_append.1 hflaw with h | h
    · exact Nat.le_of_lt (hblank flaw h)
    · exact Nat.le_of_eq (hnone flaw h)

/-- **The defects of rules are listed.** -/
theorem mem_defects_iff {defect : Defect} :
    defect ∈ defects catalog rules ↔ defect.Of catalog rules := by
  rw [defects, mem_flatMap_entries]
  constructor
  · rintro ⟨name, rule, hrule, flaw, h, rfl⟩
    exact ⟨rule, hrule, mem_ruleFlaws_iff.1 h⟩
  · rintro ⟨rule, hrule, h⟩
    exact ⟨defect.rule, rule, hrule, defect.flaw, mem_ruleFlaws_iff.2 h, rfl⟩

/-- **They are listed in order.** -/
theorem pairwise_defects (catalog : GroupCatalog) (rules : Rules) :
    (defects catalog rules).Pairwise Defect.Before :=
  pairwise_flatMap_entries _ (pairwise_ruleFlaws catalog) .inl fun h => .inr ⟨rfl, h⟩

/-! ## The findings -/

/-- **The defects of one rule are told from the rule and from which tags are listed.** -/
theorem filter_defects_eq {other : GroupCatalog} {directory : Rules} {name : String}
    (hlisted : ∀ tag, Listed catalog tag ↔ Listed other tag)
    (hrule : rules.rules.get? name = directory.rules.get? name) :
    (defects catalog rules).filter (·.rule = name)
      = (defects other directory).filter (·.rule = name) := by
  refine Table.eq_of_ascending Defect.Before.irrefl (fun _ _ _ => Defect.Before.trans)
    ((pairwise_defects catalog rules).filter _) ((pairwise_defects other directory).filter _)
    fun defect => ?_
  rw [List.mem_filter, List.mem_filter, mem_defects_iff, mem_defects_iff, decide_eq_true_iff]
  refine and_congr_left ?_
  rintro rfl
  refine exists_congr fun rule => ?_
  rw [hrule]
  exact and_congr_right fun _ =>
    ⟨fun h => h.of_listed hlisted, fun h => h.of_listed fun tag => (hlisted tag).symm⟩

/-- **The check of the rules finds every defect once, and nothing else.** Its findings are those of
the defects, in the order of the rules, then of their error keys. Those about one rule are the same
in all contents that have the rule and with all groups that list the same tags. -/
theorem content_exact (catalog : GroupCatalog) (rules : Rules) :
    content catalog rules = (defects catalog rules).map Defect.finding
      ∧ (∀ defect, defect ∈ defects catalog rules ↔ defect.Of catalog rules)
      ∧ (defects catalog rules).Nodup ∧ (defects catalog rules).Pairwise Defect.Before
      ∧ ∀ (other : GroupCatalog) (directory : Rules) (name : String),
        (∀ tag, Listed catalog tag ↔ Listed other tag) →
        rules.rules.get? name = directory.rules.get? name →
        (defects catalog rules).filter (·.rule = name)
          = (defects other directory).filter (·.rule = name) := by
  refine ⟨content_eq catalog rules, fun defect => mem_defects_iff, ?_,
    pairwise_defects catalog rules, fun other directory name => filter_defects_eq⟩
  refine (pairwise_defects catalog rules).imp ?_
  rintro defect _ h rfl
  exact h.irrefl

/-- A rule with a blank article and an error key that repeats a tag. -/
def flawedRule : Rule where
  plugin := { nodeId := "\n " }
  errorKeys := Table.empty.insert "key" { metadata := { tags := ["disk", "network", "disk"] } }

/-- The rule by itself. -/
def flawedRules : Rules where
  rules := Table.empty.insert "rule" flawedRule

/-- The rule beside another one. -/
def accompaniedRules : Rules where
  rules := flawedRules.rules.insert "another" {}

/-- A group that lists the tag that is repeated. -/
def oneGroup : GroupCatalog := Table.empty.insert "storage" { tags := ["disk"] }

/-- Two groups that list the tag, one of them twice. -/
def twoGroups : GroupCatalog :=
  (Table.empty.insert "first" { tags := ["disk", "disk"] }).insert "second" { tags := ["disk"] }

/-- The article is blank, the second tag is of no group and the third one is repeated. Another rule
and other groups make no difference. -/
theorem content_exact_flawedRule : (∀ tag, Listed oneGroup tag ↔ Listed twoGroups tag)
    ∧ (defects oneGroup flawedRules).filter (·.rule = "rule")
      = (defects twoGroups accompaniedRules).filter (·.rule = "rule")
    ∧ ⟨"rule", .blank .nodeId⟩ ∈ defects oneGroup flawedRules
    ∧ ⟨"rule", .errorKey "key" (.unknownTag 1 "network")⟩ ∈ defects oneGroup flawedRules
    ∧ ⟨"rule", .errorKey "key" (.repeatedTag 2 "disk")⟩ ∈ defects oneGroup flawedRules := by
  have hone : oneGroup.groups = [{ tags := ["disk"] }] := rfl
  have htwo : twoGroups.groups = [{ tags := ["disk", "disk"] }, { tags := ["disk"] }] := rfl
  have hlisted (tag : String) : Listed oneGroup tag ↔ Listed twoGroups tag := by
    simp [Listed, hone, htwo]
  have hunknown : ¬ Listed oneGroup "network" := by simp [Listed, hone]
  obtain ⟨-, hmem, -, -, hlocal⟩ := content_exact oneGroup flawedRules
  refine ⟨hlisted, hlocal twoGroups accompaniedRules "rule" hlisted rfl, (hmem _).2 ?_,
    (hmem _).2 ?_, (hmem _).2 ?_⟩
  · exact ⟨flawedRule, rfl, .blank (by decide)⟩
  · exact ⟨flawedRule, rfl, .errorKey rfl (.unknownTag rfl (by decide) hunknown)⟩
  · exact ⟨flawedRule, rfl, .errorKey rfl (.repeatedTag rfl (show 0 < 2 by decide) rfl)⟩

end Rulebook.Check
