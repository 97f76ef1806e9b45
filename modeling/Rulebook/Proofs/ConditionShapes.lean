import Rulebook.Proofs.GivenFields
import Rulebook.Rule.Metadata

/-!
# The shapes of a condition

Authors may leave the condition of an error key out, write one text, or write a list of texts. Which
values stand for a condition, and for which one, is said here by `Condition.Resolves`, and which are
refused, and with which words, by `Condition.Refused`. The two are told apart at each level on its
own: null is no condition where a condition is expected, but it is refused where an item of a list
is; and an empty list is a condition, with no text in it.

The value is that of the entry for the condition in the document of the metadata
(`Condition.Stated`). Metadata that are read as a document have one such value, and nothing else
decides about the condition: neither the other fields, nor what labels stand for
(`Metadata.ofYaml_condition_exact`).
-/

namespace Rulebook

open Rulebook.Document

/-! ## The document of the metadata -/

namespace WrittenMetadata

/-- The parts of metadata as authors write them. -/
def parts : List (Part Yaml.Focus WrittenMetadata) := [
  ⟨_, "condition", false, readOption Yaml.readValue,
    fun condition written => { written with condition }, (·.condition)⟩,
  ⟨_, "description", false, readTextOr,
    fun description written => { written with description }, (·.description)⟩,
  ⟨_, "impact", false, readTextOr, fun impact written => { written with impact }, (·.impact)⟩,
  ⟨_, "likelihood", false, readOr 0 Source.int32,
    fun likelihood written => { written with likelihood }, (·.likelihood)⟩,
  ⟨_, "publish_date", false, readTextOr,
    fun publishDate written => { written with publishDate }, (·.publishDate)⟩,
  ⟨_, "resolution_risk", false, readTextOr,
    fun resolutionRisk written => { written with resolutionRisk }, (·.resolutionRisk)⟩,
  ⟨_, "status", false, readTextOr, fun status written => { written with status }, (·.status)⟩,
  ⟨_, "tags", false, readOr [] readTexts, fun tags written => { written with tags }, (·.tags)⟩]

theorem layout_parts : Layout parts where
  names := by simp [parts]
  get_set := by simp [parts]
  get_set_of_ne := by simp [parts]
  ext record other h := by
    cases record
    cases other
    simpa [parts] using h

theorem read_eq : read
    = readRecord "struct ReceivedErrorKeyMetadata" {} (parts.map Part.field) := rfl

end WrittenMetadata

/-- **Metadata are read as a document**, before anything is resolved. -/
def Metadata.Decodes (text : String) : Prop :=
  ∃ written, readYaml {} WrittenMetadata.read metadataFile text = .ok written

namespace Condition

/-- The text gives this value for the condition, or none. -/
def GivenBy (text : String) (given : Option Yaml.Focus) : Prop :=
  Gives "struct ReceivedErrorKeyMetadata" "condition" (Yaml.Focus.root text) given

/-- **The value of the condition in a document**, or none. -/
inductive Stated (text : String) : Option Yaml.Value → Prop
  /-- A blank text is no document. -/
  | blank (h : Text.allBlank text = true) : Stated text none
  /-- There is no entry for the condition. -/
  | absent (h : Text.allBlank text = false) (hgiven : GivenBy text none) : Stated text none
  /-- There is one; its value is read, if it is not left empty. -/
  | entry {focus : Yaml.Focus} {value : Option Yaml.Value} (h : Text.allBlank text = false)
    (hgiven : GivenBy text (some focus))
    (hvalue : (readOption Yaml.readValue focus).Yields value) : Stated text value

/-- A document has one value for the condition. -/
theorem Stated.unique {text : String} {value other : Option Yaml.Value} (h : Stated text value)
    (hother : Stated text other) : value = other := by
  cases h with
  | blank h =>
    cases hother with
    | blank => rfl
    | absent hnot | entry hnot => exact absurd (h.symm.trans hnot) (by decide)
  | absent h hgiven =>
    cases hother with
    | blank hblank => exact absurd (hblank.symm.trans h) (by decide)
    | absent => rfl
    | entry _ hgiven' => exact nomatch Yaml.gives_unique hgiven hgiven'
  | entry h hgiven hvalue =>
    cases hother with
    | blank hblank => exact absurd (hblank.symm.trans h) (by decide)
    | absent _ hgiven' => exact nomatch Yaml.gives_unique hgiven hgiven'
    | entry _ hgiven' hvalue' =>
      cases Yaml.gives_unique hgiven hgiven'
      exact Yaml.steady_readOption_readValue _ _ _ hvalue hvalue'

/-- **What is read of metadata is the value in the document.** -/
theorem stated_of_readYaml {text : String} {written : WrittenMetadata}
    (h : readYaml {} WrittenMetadata.read metadataFile text = .ok written) :
    Stated text written.condition := by
  rw [readYaml] at h
  cases hblank : Text.allBlank text with
  | true =>
    rw [if_pos hblank] at h
    cases h
    exact .blank hblank
  | false =>
    rw [if_neg (by simp [hblank])] at h
    cases hread : Yaml.read WrittenMetadata.read text with
    | error fault => rw [hread] at h; cases h
    | ok read =>
      rw [hread] at h
      cases h
      obtain ⟨given, hgiven, hholds⟩ := Yaml.gives_of_readRecord WrittenMetadata.layout_parts
        (Yaml.yields_of_read hread) (List.mem_cons_self ..)
      cases given with
      | none =>
        rw [show written.condition = none from hholds]
        exact .absent hblank hgiven
      | some focus => exact .entry hblank hgiven hholds

/-! ## Values that are conditions -/

/-- **A value stands for a condition**, whose text is given. -/
inductive Resolves : Option Yaml.Value → String → Prop
  /-- No value stands for no condition. -/
  | absent : Resolves none ""
  /-- Neither does null. -/
  | null : Resolves (some .null) ""
  /-- A text stands for itself. -/
  | text (value : String) : Resolves (some (.text value)) value
  /-- Texts stand for all of them in their order, with a semicolon and a blank between each two. -/
  | list (texts : List String) :
    Resolves (some (.list (texts.map .text))) (String.join (texts.intersperse "; "))

/-- **The words for a value that is no text.** -/
inductive Described : Yaml.Value → String → Prop
  /-- Null. -/
  | null : Described .null "null"
  /-- A truth value. -/
  | flag (value : Bool) : Described (.flag value) "a boolean"
  /-- A number. -/
  | number (value : Decimal.Number) : Described (.number value) "a number"
  /-- A list, of whatever it may be. -/
  | list (items : List Yaml.Value) : Described (.list items) "a list"
  /-- A table. -/
  | table (entries : List (Yaml.Value × Yaml.Value)) : Described (.table entries) "a mapping"
  /-- A value with a tag, though it be a text. -/
  | tagged (tag : String) (value : Yaml.Value) : Described (.tagged tag value) "a tagged value"

/-- **A value is refused as a condition**, with a message. -/
inductive Refused : Yaml.Value → String → Prop
  /-- It is neither null nor a text nor a list. -/
  | whole {value : Yaml.Value} {words : String} (h : Described value words)
    (hnull : value ≠ .null) (hlist : ∀ items, value ≠ .list items) :
    Refused value ("expected a string or a list of strings, found " ++ words)
  /-- It is a list of which one item is no text. The message is about the first, whatever follows
  it. -/
  | item (texts : List String) {item : Yaml.Value} {words : String} (h : Described item words)
    (rest : List Yaml.Value) :
    Refused (.list (texts.map .text ++ item :: rest))
      ("list items must be strings, found " ++ words)

/-! ## What becomes of a value -/

/-- Items that are texts are these texts. -/
theorem itemTexts_map (texts : List String) :
    itemTexts (texts.map .text) = .ok texts := by
  induction texts with
  | nil => rfl
  | cons text texts ih => exact bind_eq_ok.2 ⟨texts, ih, rfl⟩

/-- An item that is no text is refused behind any texts and before anything else. -/
theorem itemTexts_append (texts : List String) {item : Yaml.Value} {words : String}
    (h : Described item words) (rest : List Yaml.Value) :
    itemTexts (texts.map .text ++ item :: rest)
      = .error (.invalidItem "condition" ("list items must be strings, found " ++ words)) := by
  induction texts with
  | nil => cases h <;> rfl
  | cons text texts ih => exact bind_eq_error.2 (.inl ih)

/-- Texts are joined with nothing at the ends. -/
theorem intercalate_separator (texts : List String) :
    separator.intercalate texts = String.join (texts.intersperse "; ") := by
  induction texts with
  | nil => rfl
  | cons text texts ih =>
    cases texts with
    | nil => simp
    | cons next rest =>
      rw [String.intercalate_cons_cons, ih, List.intersperse_cons_cons, String.join_cons,
        String.join_cons, String.append_assoc]
      rfl

/-- The text of a condition, which is empty when there is none. -/
def textOf (condition : Option Condition) : String := (condition.map joined).getD ""

/-- A value that stands for a condition is one. -/
theorem Resolves.outcome {value : Option Yaml.Value} {text : String} (h : Resolves value text) :
    textOf <$> ofValue value = .ok text := by
  cases h with
  | absent | null | text => rfl
  | list texts =>
    rw [ofValue, itemTexts_map]
    exact congrArg Except.ok (intercalate_separator texts)

/-- A value that is refused is not. -/
theorem Refused.outcome {value : Yaml.Value} {message : String} (h : Refused value message) :
    textOf <$> ofValue (some value) = .error (.invalidItem "condition" message) := by
  cases h with
  | whole h hnull hlist =>
    cases h with
    | null => exact absurd rfl hnull
    | list items => exact absurd rfl (hlist items)
    | flag | number | table | tagged => rfl
  | item texts h rest =>
    rw [ofValue, itemTexts_append texts h]
    rfl

/-- A value that is no text has words. -/
theorem exists_described {value : Yaml.Value} (h : ∀ text, value ≠ .text text) :
    ∃ words, Described value words := by
  cases value with
  | null => exact ⟨_, .null⟩
  | flag value => exact ⟨_, .flag value⟩
  | number value => exact ⟨_, .number value⟩
  | text value => exact absurd rfl (h value)
  | list items => exact ⟨_, .list items⟩
  | table entries => exact ⟨_, .table entries⟩
  | tagged tag value => exact ⟨_, .tagged tag value⟩

/-- Items are all texts, or there is a first one that is not. -/
theorem exists_texts_or_refused (items : List Yaml.Value) :
    (∃ texts : List String, items = texts.map .text)
      ∨ ∃ message, Refused (.list items) message := by
  -- a message does not say behind how many texts the item stands, so the item is kept apart from it
  suffices h : (∃ texts : List String, items = texts.map .text)
      ∨ ∃ (texts : List String) (item : Yaml.Value) (rest : List Yaml.Value),
        items = texts.map .text ++ item :: rest ∧ ∃ words, Described item words by
    rcases h with h | ⟨texts, item, rest, rfl, words, hwords⟩
    · exact .inl h
    · exact .inr ⟨_, .item texts hwords rest⟩
  induction items with
  | nil => exact .inl ⟨[], rfl⟩
  | cons item rest ih =>
    by_cases htext : ∃ text, item = .text text
    · obtain ⟨text, rfl⟩ := htext
      rcases ih with ⟨texts, rfl⟩ | ⟨texts, item, rest, rfl, hwords⟩
      · exact .inl ⟨text :: texts, rfl⟩
      · exact .inr ⟨text :: texts, item, rest, rfl, hwords⟩
    · exact .inr ⟨[], item, rest, rfl, exists_described fun text h => htext ⟨text, h⟩⟩

/-- **Every value stands for a condition or is refused.** -/
theorem resolves_or_refused (value : Option Yaml.Value) :
    (∃ text, Resolves value text)
      ∨ ∃ found message, value = some found ∧ Refused found message := by
  cases value with
  | none => exact .inl ⟨"", .absent⟩
  | some value =>
    cases value with
    | null => exact .inl ⟨"", .null⟩
    | text text => exact .inl ⟨text, .text text⟩
    | list items =>
      rcases exists_texts_or_refused items with ⟨texts, rfl⟩ | ⟨message, h⟩
      · exact .inl ⟨_, .list texts⟩
      · exact .inr ⟨_, message, rfl, h⟩
    | flag value => exact .inr ⟨_, _, rfl, .whole (.flag value) nofun nofun⟩
    | number value => exact .inr ⟨_, _, rfl, .whole (.number value) nofun nofun⟩
    | table entries => exact .inr ⟨_, _, rfl, .whole (.table entries) nofun nofun⟩
    | tagged tag value => exact .inr ⟨_, _, rfl, .whole (.tagged tag value) nofun nofun⟩

/-- **The condition of a value**, if it stands for one. -/
theorem outcome_eq_ok_iff {value : Option Yaml.Value} {text : String} :
    textOf <$> ofValue value = .ok text ↔ Resolves value text := by
  refine ⟨fun h => ?_, Resolves.outcome⟩
  rcases resolves_or_refused value with ⟨other, hother⟩ | ⟨found, message, rfl, hrefused⟩
  · cases hother.outcome.symm.trans h
    exact hother
  · exact nomatch hrefused.outcome.symm.trans h

/-- **Why a value is refused**, if it does not. -/
theorem outcome_eq_error_iff {value : Option Yaml.Value} {error : Error} :
    textOf <$> ofValue value = .error error
      ↔ ∃ found message, value = some found ∧ Refused found message
        ∧ error = .invalidItem "condition" message := by
  constructor
  · intro h
    rcases resolves_or_refused value with ⟨text, htext⟩ | ⟨found, message, rfl, hrefused⟩
    · exact nomatch htext.outcome.symm.trans h
    · exact ⟨found, message, rfl, hrefused, Except.error.inj (h.symm.trans hrefused.outcome)⟩
  · rintro ⟨found, message, rfl, hrefused, rfl⟩
    exact hrefused.outcome

example : textOf <$> ofValue (some (.list [.text "first", .text "second"])) = .ok "first; second" :=
  rfl

end Condition

/-! ## Metadata -/

namespace Metadata

/-- What becomes of the condition of metadata that were read. -/
theorem condition_of_readYaml {text : String} {written : WrittenMetadata}
    (h : readYaml {} WrittenMetadata.read metadataFile text = .ok written) (codes : LabelCodes) :
    Metadata.condition <$> ofYaml text codes
      = Condition.textOf <$> Condition.ofValue written.condition := by
  show Metadata.condition <$> (readYaml {} WrittenMetadata.read metadataFile text
    >>= fun written => written.resolve codes) = _
  rw [h]
  show Metadata.condition <$> written.resolve codes = _
  unfold WrittenMetadata.resolve
  cases Condition.ofValue written.condition <;> rfl

/-- **The condition is resolved faithfully or the metadata are refused.** Metadata that are read as
a document have one value for the condition. They are resolved when the value stands for a
condition, and it is then the condition; otherwise they are refused for the condition, with a
message about the value or about the first item of the list that is no text. What else the document
holds and what labels stand for takes no part in it. -/
theorem ofYaml_condition_exact {text : String} (hdecodes : Decodes text) :
    ∃ value, Condition.Stated text value
      ∧ (∀ other, Condition.Stated text other → other = value)
      ∧ (∀ codes condition,
          (∃ metadata, ofYaml text codes = .ok metadata ∧ metadata.condition = condition)
            ↔ Condition.Resolves value condition)
      ∧ (∀ codes error, ofYaml text codes = .error error
          ↔ ∃ found message, value = some found ∧ Condition.Refused found message
            ∧ error = .invalidItem "condition" message)
      ∧ (∀ other codes next, Decodes other → Condition.Stated other value →
          Metadata.condition <$> ofYaml other next = Metadata.condition <$> ofYaml text codes) := by
  obtain ⟨written, hwritten⟩ := hdecodes
  have hstated := Condition.stated_of_readYaml hwritten
  refine ⟨written.condition, hstated, fun other hother => hother.unique hstated,
    fun codes condition => ?_, fun codes error => ?_, ?_⟩
  · rw [← Condition.outcome_eq_ok_iff, ← condition_of_readYaml hwritten codes, map_eq_ok]
  · rw [← Condition.outcome_eq_error_iff, ← condition_of_readYaml hwritten codes, map_eq_error]
  · rintro other codes next ⟨otherWritten, hother⟩ hsame
    rw [condition_of_readYaml hother, condition_of_readYaml hwritten,
      (Condition.stated_of_readYaml hother).unique hsame]

/-- A condition that is a list of texts, but for one item that was left empty. -/
def mixedText : String := "condition: [\"first\", ~, \"second\"]"

/-- The list as it is written. -/
def mixedItems : Yaml.Node := .sequence none [.scalar none "first" .doubleQuoted,
  .scalar none "~" .plain, .scalar none "second" .doubleQuoted] true

/-- The document in which it is written. -/
def mixedDocument : Yaml.Document where
  root := .mapping none [(.scalar none "condition" .plain, mixedItems)] true
  anchored := []
  size := 8
  broken := none

/-- The list as it is read. -/
def mixedCondition : Yaml.Value := .list [.text "first", .null, .text "second"]

theorem decodes_mixedText : Decodes mixedText := by
  have hread :
      (readYaml {} WrittenMetadata.read metadataFile mixedText).toOption.isSome = true := by
    decide +kernel
  obtain ⟨written, hwritten⟩ := Option.isSome_iff_exists.1 hread
  exact ⟨written, eq_ok_of_toOption hwritten⟩

theorem root_mixedText : Yaml.Focus.root mixedText
    = ⟨mixedDocument.root, [], Yaml.maxDepth, mixedDocument⟩ := by
  have hevents : Yaml.Event.ofText mixedText.toList = ([.streamStart, .documentStart,
      .mappingStart {}, .scalar {} "condition" .plain, .sequenceStart {},
      .scalar {} "first" .doubleQuoted, .scalar {} "~" .plain, .scalar {} "second" .doubleQuoted,
      .sequenceEnd, .mappingEnd, .documentEnd, .streamEnd], none) := by
    decide +kernel
  have hdocument : Yaml.Document.ofText mixedText.toList = (mixedDocument, false) :=
    Yaml.Document.ofText_of_events hevents rfl
  rw [Yaml.Focus.root, hdocument]

theorem readValue_mixedItems (place : Place) (document : Yaml.Document) :
    Yaml.readValue ⟨mixedItems, place, 127, document⟩ = pure mixedCondition := by
  have hquoted (text : String) (step : Step) : Yaml.readValueAt 126
      ⟨.scalar none text .doubleQuoted, step :: place, 126, document⟩ = pure (.text text) := by
    unfold Yaml.readValueAt
    rfl
  have htilde (step : Step) : Yaml.readValueAt 126
      ⟨.scalar none "~" .plain, step :: place, 126, document⟩ = pure .null := by
    unfold Yaml.readValueAt
    rfl
  let items : Run Yaml.Focus :=
    ⟨[⟨.scalar none "first" .doubleQuoted, .index 0 :: place, 126, document⟩,
      ⟨.scalar none "~" .plain, .index 1 :: place, 126, document⟩,
      ⟨.scalar none "second" .doubleQuoted, .index 2 :: place, 126, document⟩], none⟩
  have hitems : readParts (Yaml.readValueAt 126) items
      = pure [.text "first", .null, .text "second"] := by
    unfold readParts
    simp only [items, List.mapM_cons, List.mapM_nil, hquoted, htilde, pure_bind]
    rfl
  show Yaml.readValueAt (126 + 1) _ = _
  unfold Yaml.readValueAt
  show atPlace place ((Yaml.Value.list <$> readParts (Yaml.readValueAt 126) items) >>= pure) = _
  rw [hitems]
  rfl

theorem stated_mixedText : Condition.Stated mixedText (some mixedCondition) := by
  have hgiven : Condition.GivenBy mixedText
      (some ⟨mixedItems, [.key "condition"], 127, mixedDocument⟩) := by
    refine ⟨⟨[(⟨.scalar none "condition" .plain, [], 127, mixedDocument⟩, _)], none⟩, ?_,
      .here ⟨0, 0, rfl⟩ .nil⟩
    rw [root_mixedText]
    exact ⟨0, 0, rfl⟩
  refine .entry (by decide +kernel) hgiven ⟨0, 0, ?_⟩
  show (some <$> Yaml.readValue ⟨mixedItems, [.key "condition"], 127, mixedDocument⟩) 0 = _
  rw [readValue_mixedItems]
  rfl

/-- Metadata with that condition are refused, and it is the empty item that is named. -/
theorem ofYaml_condition_mixedText :
    ofYaml mixedText {} = .error
      (.invalidItem "condition" "list items must be strings, found null") := by
  obtain ⟨value, -, hunique, -, herror, -⟩ := ofYaml_condition_exact decodes_mixedText
  obtain rfl := hunique _ stated_mixedText
  exact (herror {} _).2 ⟨mixedCondition, _, rfl, .item ["first"] .null [.text "second"], rfl⟩

end Metadata

end Rulebook
