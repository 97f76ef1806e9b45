import Rulebook.Status
import Rulebook.Proofs.JsonRecords
import Rulebook.Proofs.JsonValues

/-!
# The written form of a status

A status has a flag, which says that its rule was loaded, and a text, which says why it was not. The
two agree in every status that there can be (`Status.Obtained.agrees`): those that are made have
this by the way they are made, and those that are read because whoever reads them looks
(`Status.ofParts`). So nothing is refused that was written, and a status is read back from its text
in JSON (`Status.reads`).

What is read of any other object in JSON is said by its members (`Status.Members.readBytes`). The
three parts are read wherever they stand, and members that no status has are passed over, which
cannot fail in a text that is well-formed to its end (`Json.Document.skipFlaw?`).
-/

namespace Rulebook

open Rulebook.Document
open Rulebook.Json (Focus Node maxDepth)

/-! ## Categories -/

/-- **A category in JSON**: its name, alone or as the one key of an object that holds nothing. -/
inductive Category.Written : Node → Category → Prop where
  /-- The name alone. -/
  | name (category : Category) : Written (.text (.ok category.name)) category
  /-- The name as a key. -/
  | key (category : Category) :
    Written (.object [(.text (.ok category.name), .null)] none) category

/-- A written category is read. -/
theorem Category.Written.read {node : Node} {category : Category} (h : Written node category)
    (depth : Nat) : Category.read (Focus.mk node (depth + 1)) = pure category := by
  cases h with
  | name => cases category <;> rfl
  | key => cases category <;> rfl

/-- **The name of a category is read back.** -/
theorem Category.reads (category : Category) :
    Reads Focus.Stands Category.read (.text category.name) category := by
  rintro ⟨node, depth⟩ ⟨rfl, -⟩
  cases category <;> rfl

namespace Status

/-! ## The parts of a status -/

section Parts

variable {σ : Type} [Source σ]

/-- The parts from which a status is put together. -/
def parts : List (Part σ Parts) := [
  ⟨_, "type", true, Category.read, fun category parts => { parts with category }, (·.category)⟩,
  ⟨_, "loaded", true, Source.flag, fun loaded parts => { parts with loaded }, (·.loaded)⟩,
  ⟨_, "parsing_error", false, readText, fun error parts => { parts with error }, (·.error)⟩]

theorem layout_parts : Layout (parts (σ := σ)) where
  names := by simp [parts]
  get_set := by simp [parts]
  get_set_of_ne := by simp [parts]
  ext record other h := by
    cases record
    cases other
    simpa [parts] using h

theorem read_eq (value : σ) : Status.read value
    = readRecord "struct StatusFields" ({} : Parts) (parts.map Part.field) value >>= ofParts := rfl

end Parts

/-- Parts that agree make a status of these parts. -/
theorem ofParts_of_agree {category : Category} {isLoaded : Bool} {error : String}
    (h : isLoaded = true ↔ error = "") :
    ofParts ⟨category, isLoaded, error⟩ = pure ⟨category, isLoaded, error⟩ := by
  cases isLoaded with
  | true =>
    cases h.1 rfl
    rfl
  | false =>
    have hempty : error.isEmpty = false := by simpa using h
    rw [ofParts, hempty]
    simp [failed, hempty]

/-- Parts that do not agree are refused. -/
theorem ofParts_of_disagree (category : Category) {isLoaded : Bool} {error : String}
    (h : ¬ (isLoaded = true ↔ error = "")) :
    ∃ cause, ofParts ⟨category, isLoaded, error⟩ = refuse cause := by
  cases isLoaded with
  | true =>
    have hempty : error.isEmpty = false := by simpa using h
    rw [ofParts, hempty]
    exact ⟨_, rfl⟩
  | false =>
    have hempty : error.isEmpty = true := by simpa using h
    rw [ofParts, hempty]
    exact ⟨_, rfl⟩

/-! ## Every status -/

/-- **How one comes by a status.** -/
inductive Obtained : Status → Prop where
  /-- A rule was loaded. -/
  | loaded (category : Category) : Obtained (loaded category)
  /-- A rule was not loaded, for a reason that may be empty. -/
  | failed (category : Category) (error : String) : Obtained (failed category error)
  /-- The status was read from a document of any kind. -/
  | read {σ : Type} [Source σ] {value : σ} {status : Status}
    (h : (Status.read value).value = .ok status) : Obtained status

/-- **The flag and the text of a status always agree**, however one came by it. -/
theorem Obtained.agrees {status : Status} (h : Obtained status) :
    status.isLoaded = true ↔ status.error = "" := by
  cases h with
  | loaded category => simp [Status.loaded]
  | failed category error =>
    by_cases hempty : error = ""
    · simp [Status.failed, hempty, unknownError]
    · simp [Status.failed, hempty]
  | read h =>
    rw [read_eq] at h
    obtain ⟨⟨category, isLoaded, error⟩, -, h⟩ := (Reading.Yields.of_value h).of_bind
    by_cases hagree : isLoaded = true ↔ error = ""
    · rw [ofParts_of_agree hagree, Reading.Yields.pure_iff] at h
      cases h
      exact hagree
    · obtain ⟨cause, hrefuse⟩ := ofParts_of_disagree category hagree
      rw [hrefuse] at h
      exact absurd h (Reading.Yields.not_refuse _ _)

theorem kept (depth : Nat) (status : Status) : Json.Kept (depth + 1) status.toData := by
  refine .table ?_
  simp [Json.Kept.text, Json.Kept.flag]

/-- **A status is read back from JSON** if its parts agree. -/
theorem reads {status : Status} (h : status.isLoaded = true ↔ status.error = "") :
    Reads Focus.Stands Status.read status.toData status := by
  have hparts : Reads Focus.Stands
      (readRecord "struct StatusFields" ({} : Parts) (parts.map Part.field)) status.toData
      ⟨status.category, status.isLoaded, status.error⟩ := by
    refine Json.faithful.reads_record _ (by simp [parts, Part.field]) ?_
    refine .mandatory status.category.reads ?_
    refine .mandatory (Json.faithful.reads_flag status.isLoaded) ?_
    exact .optional (Json.faithful.reads_text status.error) (.nil _)
  intro focus hfocus
  rw [read_eq, hparts focus hfocus, pure_bind]
  exact ofParts_of_agree h

/-! ## Objects in JSON -/

/-- **The members of an object that are those of a status**: one type, one flag, and at most one
text. It may have any other members, of which nothing is asked. -/
structure Members (members : List (String × Node)) (category : Category) (isLoaded : Bool)
    (error : Option String) : Prop where
  /-- The type is written once. -/
  type : ∃ node, members.filter (·.1 == "type") = [("type", node)] ∧ Category.Written node category
  /-- The flag is there once. -/
  loaded : members.filter (·.1 == "loaded") = [("loaded", .flag isLoaded)]
  /-- The text is there once, or it is not there. -/
  error : members.filter (·.1 == "parsing_error")
    = (error.map fun error => ("parsing_error", Node.text (.ok error))).toList

section Objects

variable {members : List (String × Node)} {category : Category} {isLoaded : Bool}
  {error : Option String}

/-- **The parts of a status are read from its members**, whatever the others are. -/
theorem Members.read (h : Members members category isLoaded error)
    (hmembers : (Node.ofMembers members).skipFlaw? = none) :
    readRecord "struct StatusFields" ({} : Parts) (parts.map Part.field)
      (Focus.mk (.ofMembers members) maxDepth)
      = pure ⟨category, isLoaded, error.getD ""⟩ := by
  obtain ⟨node, htype, hwritten⟩ := h.type
  have honce : Once (parts.map fun part : Part Focus Parts => part.name) members := by
    have herror : (error.map fun error => ("parsing_error", Node.text (.ok error))).toList.length
        ≤ 1 := by
      cases error <;> simp
    refine Once.of_filter ?_
    simp [parts, htype, h.loaded, h.error, herror]
  refine Json.readRecord_of_gives layout_parts hmembers (.object honce) ?_
  simp only [parts, List.forall_mem_cons, find?_eq_filter, htype, h.loaded, h.error]
  refine ⟨hwritten.read 125, rfl, ?_, fun _ hpart => nomatch hpart⟩
  cases error with
  | none => exact ⟨rfl, rfl⟩
  | some error => rfl

/-- **A status is read from its members** exactly when flag and text agree. -/
theorem Members.readBytes (h : Members members category isLoaded error) {bytes : List UInt8}
    (hdocument : Json.Document bytes (.ofMembers members)) :
    Json.readBytes Status.read bytes
      = (ofParts ⟨category, isLoaded, error.getD ""⟩).value := by
  have hskip := hdocument.skipFlaw?
  obtain ⟨rest, hparse, hrest⟩ := hdocument
  rw [Json.readBytes, hparse]
  dsimp only
  rw [read_eq, h.read hskip, pure_bind, hrest]
  exact bind_pure _

end Objects

/-- **The written form of a status keeps flag and text in agreement and loses nothing.** However one
comes by a status, it says that its rule was loaded exactly when it gives no reason why not, and it
is read back from its text in JSON. An object in JSON with a type, a flag and perhaps a text is read
exactly when the flag is set just when the text is missing or empty; the status that is read then
has these three parts and no other. -/
theorem written_form :
    (∀ status, Obtained status → (status.isLoaded = true ↔ status.error = "")
      ∧ Json.read Status.read (Json.compact status.toData) = .ok status)
      ∧ (∀ bytes status, Json.readBytes Status.read bytes = .ok status → Obtained status)
      ∧ ∀ bytes members rest category isLoaded error,
        Node.ofBytes bytes = (.ofMembers members, some rest) → Node.dropSpace rest = [] →
        Members members category isLoaded error →
          ((∃ status, Json.readBytes Status.read bytes = .ok status)
            ↔ (isLoaded = true ↔ error = none ∨ error = some ""))
          ∧ ∀ status, Json.readBytes Status.read bytes = .ok status →
            status = ⟨category, isLoaded, error.getD ""⟩ := by
  refine ⟨fun status h => ⟨h.agrees, ?_⟩, fun bytes status h => ?_, ?_⟩
  · exact Json.read_compact (kept 126 status) (reads h.agrees)
  · obtain ⟨value, hvalue, h⟩ := bind_eq_ok.1 h
    split at h
    · split_ifs at h
      cases h
      exact .read hvalue
    · cases h
  · intro bytes members rest category isLoaded error hparse hrest hmembers
    have hempty : error.getD "" = "" ↔ error = none ∨ error = some "" := by
      cases error <;> simp
    rw [hmembers.readBytes ⟨rest, hparse, hrest⟩, ← hempty]
    by_cases hagree : isLoaded = true ↔ error.getD "" = ""
    · rw [ofParts_of_agree hagree]
      exact ⟨⟨fun _ => hagree, fun _ => ⟨_, rfl⟩⟩, fun status h => by cases h; rfl⟩
    · obtain ⟨cause, hrefuse⟩ := ofParts_of_disagree category hagree
      rw [hrefuse]
      exact ⟨⟨fun ⟨_, h⟩ => (nomatch h), fun h => absurd h hagree⟩, fun _ h => nomatch h⟩

/-- An object with a member that is none of a status, in compact JSON. -/
def writtenObject (isLoaded : Bool) : Data :=
  .table [("x", .list [.integer 1]), ("loaded", .flag isLoaded), ("parsing_error", .text "é\n"),
    ("type", .text "internal")]

/-- The object is read when its rule was not loaded, and refused otherwise. So a reason that was not
given is read back as the one that is shown. -/
theorem written_form_object :
    Json.readBytes Status.read (Text.encode (Json.compact (writtenObject false)))
        = .ok ⟨.internal, false, "é\n"⟩
      ∧ (¬ ∃ status, Json.readBytes Status.read (Text.encode (Json.compact (writtenObject true)))
        = .ok status)
      ∧ Json.read Status.read (Json.compact (failed .external "").toData)
        = .ok ⟨.external, false, "unknown parsing error"⟩ := by
  obtain ⟨hobtained, -, hobject⟩ := written_form
  have hread (isLoaded : Bool) := hobject (Text.encode (Json.compact (writtenObject isLoaded)))
    [("x", .list [.number (.ok (.integer 1))] none), ("loaded", .flag isLoaded),
      ("parsing_error", .text (.ok "é\n")), ("type", .text (.ok "internal"))] [] .internal isLoaded
    (some "é\n") (by
      have hkept : Json.Kept 2 (writtenObject isLoaded) := by
        have hlist : Json.Kept 1 (.list [.integer 1]) :=
          .list (List.forall_mem_singleton.2 (.integer 0 (by decide) (by decide)))
        refine .table ?_
        simp [Json.Kept.text, Json.Kept.flag, hlist]
      rw [(Json.spells_encode_compact hkept).ofBytes]
      rfl)
    rfl ⟨⟨_, by simp [Category.name], .name .internal⟩, by simp, by simp⟩
  refine ⟨?_, ?_, (hobtained _ (.failed .external "")).2⟩
  · obtain ⟨⟨-, hsome⟩, hunique⟩ := hread false
    obtain ⟨status, hstatus⟩ := hsome (by simp)
    rw [hstatus, hunique status hstatus]
    rfl
  · obtain ⟨⟨hagree, -⟩, -⟩ := hread true
    exact fun h => by simpa using hagree h

end Status

end Rulebook
