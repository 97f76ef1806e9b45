import Rulebook.Proofs.ConditionShapes
import Rulebook.Proofs.Unlinked

/-!
# A field that is left empty is one that is left out

Authors may leave a field of the metadata empty, with a tilde, the word `null` or nothing behind its
name, or leave out the whole entry. This module proves that the two are one: any such entries may be
left out of a text, and the same metadata are read, or the same fault is met
(`Metadata.ofYaml_without_empty_fields`). What nothing stands for is then empty, zero or without
items.

The argument is about records in general. Entries are **thinned** when what is left out are parts
that are read as what the record has at the start (`Thinned`). Two readings, one of all entries and
one of those that are kept, then hold the same record at each entry that is kept, and differ only in
the names that they have met (`Thinned.readNamed_eq`). It needs that no part is given twice, for one
that was left out could otherwise be given again, and that there are no references, for what a
reference leads to, and how many may be followed, is decided by all of the document.
-/

namespace Rulebook.Document

variable {σ ρ : Type}

section Thinned

variable [Source σ]

/-- **Entries of which some are left out**, read from the first to the last. `given` are the names
of parts that were met before. What is left out is a part that was not met and whose value is the
one that the part has at the start; every other entry is answered in the same way. -/
inductive Thinned (parts : List (Part σ ρ)) (start : ρ) :
    List String → List (σ × σ) → List (σ × σ) → Prop
  /-- Nothing is left to read. -/
  | nil (given : List String) : Thinned parts start given [] []
  /-- A part is kept. -/
  | part {given : List String} {key value key' value' : σ} {rest rest' : List (σ × σ)}
    {part : Part σ ρ} (hpart : part ∈ parts) (hnew : part.name ∉ given)
    (hkey : Source.text "field identifier" key = pure part.name)
    (hkey' : Source.text "field identifier" key' = pure part.name)
    (hread : part.read value' = part.read value)
    (h : Thinned parts start (part.name :: given) rest rest') :
    Thinned parts start given ((key, value) :: rest) ((key', value') :: rest')
  /-- Something else is kept. -/
  | other {given : List String} {key value key' value' : σ} {rest rest' : List (σ × σ)}
    {name : String} (hname : ∀ part ∈ parts, part.name ≠ name)
    (hkey : Source.text "field identifier" key = pure name)
    (hkey' : Source.text "field identifier" key' = pure name)
    (hskip : Source.skip value' = Source.skip value) (h : Thinned parts start given rest rest') :
    Thinned parts start given ((key, value) :: rest) ((key', value') :: rest')
  /-- A key is refused, and nothing behind it is read. -/
  | refused {given : List String} {key value key' value' : σ} {rest rest' : List (σ × σ)}
    {fault : Fault} (hkey : Source.text "field identifier" key = throw fault)
    (hkey' : Source.text "field identifier" key' = throw fault) :
    Thinned parts start given ((key, value) :: rest) ((key', value') :: rest')
  /-- A part is left out. -/
  | leftOut {given : List String} {key value : σ} {rest rest' : List (σ × σ)} {part : Part σ ρ}
    (hpart : part ∈ parts) (hnew : part.name ∉ given)
    (hkey : Source.text "field identifier" key = pure part.name)
    (hread : part.read value = pure (part.get start))
    (h : Thinned parts start (part.name :: given) rest rest') :
    Thinned parts start given ((key, value) :: rest) rest'

variable {parts : List (Part σ ρ)} {start : ρ}

/-- An entry for a part that was not met before is read and stored. -/
theorem Layout.readNamed_cons (hlayout : Layout parts) {part : Part σ ρ} (hpart : part ∈ parts)
    {given : List String} (hnew : part.name ∉ given) {key : σ}
    (hkey : Source.text "field identifier" key = pure part.name) (value : σ) (rest : List (σ × σ))
    (record : ρ) :
    readNamed (parts.map Part.field) ((key, value) :: rest) given record
      = part.read value >>= fun content =>
          readNamed (parts.map Part.field) rest (part.name :: given) (part.set content record) := by
  rw [readNamed_of_known hkey (hlayout.find?_field hpart) hnew]
  exact bind_map_left part.set (part.read value) _

/-- **The same record is read, or the same fault met, when entries are left out.** -/
theorem Thinned.readNamed_eq (hlayout : Layout parts) {given given' : List String}
    {entries kept : List (σ × σ)} (h : Thinned parts start given entries kept)
    (hgiven : ∀ name ∈ given', name ∈ given) {record : ρ}
    (hrecord : ∀ part ∈ parts, part.name ∉ given → part.get record = part.get start) :
    Prod.snd <$> readNamed (parts.map Part.field) kept given' record
      = Prod.snd <$> readNamed (parts.map Part.field) entries given record := by
  -- what was met of the entries may be more than what was met of those that are kept
  induction h generalizing given' record with
  | nil given => rfl
  | @part given key value key' value' rest rest' part hpart hnew hkey hkey' hread h ih =>
    rw [hlayout.readNamed_cons hpart hnew hkey,
      hlayout.readNamed_cons hpart (fun h => hnew (hgiven _ h)) hkey', hread, map_bind, map_bind]
    refine bind_congr fun content => ih (fun name hname => ?_) fun other hother hnot => ?_
    · rcases List.mem_cons.1 hname with rfl | hname
      · exact List.mem_cons_self ..
      · exact List.mem_cons_of_mem _ (hgiven name hname)
    · obtain ⟨hne, hnot⟩ := List.ne_and_not_mem_of_not_mem_cons hnot
      rw [hlayout.get_set_of_ne other hother part hpart hne content record]
      exact hrecord other hother hnot
  | @other given key value key' value' rest rest' name hname hkey hkey' hskip h ih =>
    have hfind : (parts.map Part.field).find? (·.name == name) = none :=
      List.find?_eq_none.2 (List.forall_mem_map.2 fun part hpart => by
        simpa [Part.field] using hname part hpart)
    rw [readNamed_of_unknown hkey hfind, readNamed_of_unknown hkey' hfind, hskip, map_bind,
      map_bind]
    exact bind_congr fun _ => ih hgiven hrecord
  | refused hkey hkey' =>
    rw [readNamed, readNamed, hkey, hkey']
    rfl
  | @leftOut given key value rest rest' part hpart hnew hkey hread h ih =>
    have hkept : part.set (part.get start) record = record := by
      rw [← hrecord part hpart hnew]
      exact hlayout.set_get hpart record
    rw [hlayout.readNamed_cons hpart hnew hkey, hread, pure_bind, hkept]
    exact ih (fun name hname => List.mem_cons_of_mem _ (hgiven name hname))
      fun other hother hnot => hrecord other hother (List.not_mem_of_not_mem_cons hnot)

end Thinned

end Rulebook.Document

namespace Rulebook.Yaml

open Rulebook.Document

/-! ## Tables in YAML -/

/-- The text of a scalar, which is the name of a field if the scalar is a key. -/
def Node.name? : Node → Option String
  | .scalar _ text _ => some text
  | _ => none

/-- **A plain null**: nothing, a tilde or the word, without quotes and without a tag. -/
def Node.isPlainNull : Node → Bool
  | .scalar none text .plain => text.isEmpty || Scalar.isNull text
  | _ => false

theorem Node.eq_scalar_of_isPlainNull {node : Node} (h : node.isPlainNull = true) :
    ∃ text, node = .scalar none text .plain ∧ (text.isEmpty || Scalar.isNull text) = true := by
  unfold isPlainNull at h
  split at h
  · exact ⟨_, rfl, h⟩
  · cases h

/-- **Entries of which some are left out**: any that give a plain null for one of the fields. -/
inductive LeftOut (names : List String) : List (Node × Node) → List (Node × Node) → Prop
  /-- There is nothing to leave out. -/
  | nil : LeftOut names [] []
  /-- An entry is kept. -/
  | keep (entry : Node × Node) {entries kept : List (Node × Node)}
    (h : LeftOut names entries kept) : LeftOut names (entry :: entries) (entry :: kept)
  /-- An entry is left out. -/
  | drop {key value : Node} {name : String} {entries kept : List (Node × Node)}
    (hkey : key.name? = some name) (hname : name ∈ names) (hnull : value.isPlainNull = true)
    (h : LeftOut names entries kept) : LeftOut names ((key, value) :: entries) kept

/-- **No field is given twice.** -/
def GivenOnce (names : List String) (entries : List (Node × Node)) : Prop :=
  entries.Pairwise fun entry later =>
    ∀ name ∈ names, entry.1.name? = some name → later.1.name? ≠ some name

/-- **A field is absent or left empty.** -/
def Unfilled (name : String) (entries : List (Node × Node)) : Prop :=
  ∀ entry ∈ entries, entry.1.name? = some name → entry.2.isPlainNull = true

/-- **What follows the entries of a table** in a text. -/
structure Ending where
  /-- Whether the table comes to its end. -/
  whole : Bool := true
  /-- Why the document breaks off, if it does. -/
  broken : Option Break := none
  /-- Whether anything follows the document. -/
  more : Bool := false

/-- **A text is a table with these entries**, and what follows them. A text in which there is
nothing, or nothing but comments and marks, is the table without entries. -/
inductive LaysOut (text : String) : List (Node × Node) → Ending → Prop
  /-- The text is blank. -/
  | blank (h : Text.allBlank text = true) : LaysOut text [] {}
  /-- There is nothing in the document. -/
  | empty (h : Text.allBlank text = false) {document : Document} {more : Bool}
    (hdocument : Document.ofText text.toList = (document, more))
    (hroot : document.root.isBlank = true) :
    LaysOut text [] { broken := document.broken, more }
  /-- There is a table. -/
  | table (h : Text.allBlank text = false) {document : Document} {more : Bool}
    {tag : Option String} {entries : List (Node × Node)} {whole : Bool}
    (hdocument : Document.ofText text.toList = (document, more))
    (hroot : document.root = .mapping tag entries whole) :
    LaysOut text entries { whole, broken := document.broken, more }

/-! ## What is read of a table -/

section Reading

variable {ρ : Type} {parts : List (Part Focus ρ)} {start : ρ}

/-- The key and the value of an entry, where the table is the whole document. -/
def Document.entryAt (document : Document) (entry : Node × Node) : Focus × Focus :=
  (⟨entry.1, [], maxDepth - 1, document⟩,
    ⟨entry.2, [Focus.keyStep entry.1], maxDepth - 1, document⟩)

/-- **What is read of the entries of a table**, up to its end. -/
def readEntriesOf (parts : List (Part Focus ρ)) (start : ρ) (document : Document)
    (entries : List (Node × Node)) (whole : Bool) : Reading ρ :=
  atPlace [] do
    let record ← Prod.snd <$>
      readNamed (parts.map Part.field) (entries.map document.entryAt) [] start
    (Run.mk ([] : List Focus) (if whole then none else some document.breakFault)).finish
    pure record

/-- No part that is not needed is missing. -/
theorem find?_missing (hoptional : ∀ part ∈ parts, part.needed = false) (given : List String) :
    ((parts.map Part.field).find? fun field => field.needed && !given.contains field.name) = none :=
  List.find?_eq_none.2 (List.forall_mem_map.2 fun part hpart => by
    simp [Part.field, hoptional part hpart])

/-- **A record whose fields may all be absent** is read from the entries of a table. -/
theorem readRecord_mapping (hoptional : ∀ part ∈ parts, part.needed = false) (title : String)
    (document : Document) (tag : Option String) (entries : List (Node × Node)) (whole : Bool) :
    readRecord title start (parts.map Part.field)
        (Focus.mk (.mapping tag entries whole) [] maxDepth document)
      = readEntriesOf parts start document entries whole := by
  have hfields : Source.fields title (Focus.mk (.mapping tag entries whole) [] maxDepth document)
      = pure (.named ⟨entries.map document.entryAt,
        if whole then none else some document.breakFault⟩) := rfl
  refine congrArg (atPlace []) ?_
  rw [hfields, pure_bind, bind_map_left]
  refine bind_congr fun outcome => ?_
  dsimp only
  rw [find?_missing hoptional]
  rfl

/-- From nothing the record is read that there is at the start. -/
theorem readRecord_blank (hoptional : ∀ part ∈ parts, part.needed = false) (title : String)
    {document : Document} (hroot : document.root.isBlank = true) :
    readRecord title start (parts.map Part.field) (Focus.mk document.root [] maxDepth document)
      = pure start := by
  have hfields : Source.fields title (Focus.mk document.root [] maxDepth document)
      = pure (.named ⟨[], none⟩) := by
    generalize document.root = root at hroot
    cases root with
    | void => rfl
    | scalar tag text style =>
      show (if (Node.scalar tag text style).isBlank then _ else _) = _
      rw [if_pos hroot]
    | _ => cases hroot
  refine (congrArg (atPlace []) ?_).trans (rfl : atPlace [] (pure start) = _)
  rw [hfields, pure_bind]
  dsimp only
  rw [readNamed, pure_bind]
  dsimp only
  rw [find?_missing hoptional]
  rfl

/-- Where a value may be absent, a plain null is none. -/
theorem readOption_of_null {α : Type} (read : Focus → Reading α) {focus : Focus}
    (h : focus.node.isPlainNull = true) : readOption read focus = pure none := by
  obtain ⟨node, place, depth, document⟩ := focus
  obtain ⟨text, rfl, hnull⟩ := Node.eq_scalar_of_isPlainNull h
  have hoptional : Source.optional (Focus.mk (.scalar none text .plain) place depth document)
      = pure none := by
    show (pure (if text.isEmpty || Scalar.isNull text then none else some _) : Reading _) = _
    rw [if_pos hnull]
  rw [readOption, hoptional]
  rfl

/-- Its value is then the one that absence stands for. -/
theorem readOr_of_null {α : Type} (absent : α) (read : Focus → Reading α) {focus : Focus}
    (h : focus.node.isPlainNull = true) : readOr absent read focus = pure absent := by
  rw [readOr, readOption_of_null read h]
  rfl

/-- **Parts that may be left out or left empty**, which is the same to whoever reads them. -/
structure MayBeEmpty (parts : List (Part Focus ρ)) (start : ρ) : Prop where
  /-- No part is needed. -/
  optional : ∀ part ∈ parts, part.needed = false
  /-- What is read of an unlinked node depends on nothing else. -/
  keeps : ∀ part ∈ parts, KeepsToNode part.read
  /-- A plain null is read as what there is at the start. -/
  null : ∀ part ∈ parts, ∀ focus : Focus, focus.node.isPlainNull = true →
    part.read focus = pure (part.get start)

/-! ## Keys -/

/-- A scalar is read as its text. -/
theorem text_of_name? {focus : Focus} {name : String} (h : focus.node.name? = some name)
    (expected : String) : focus.text expected = pure name := by
  obtain ⟨node, place, depth, document⟩ := focus
  cases node with
  | scalar tag text style =>
    cases h
    rfl
  | _ => cases h

/-- Nothing else is read as a text, but for what a reference leads to. -/
theorem text_of_name?_eq_none (focus : Focus) (h : focus.node.name? = none)
    (hunlinked : focus.node.isUnlinked = true) (expected : String) :
    ∃ fault, focus.text expected = throw fault := by
  obtain ⟨node, place, depth, document⟩ := focus
  cases node with
  | scalar tag text style => cases h
  | «alias» anchor => cases hunlinked
  | void | cut | sequence | mapping => exact ⟨_, rfl⟩

/-- An unlinked key that is read as a text is a scalar with this text. -/
theorem name?_of_text (focus : Focus) {expected name : String}
    (hunlinked : focus.node.isUnlinked = true) (h : (focus.text expected).Yields name) :
    focus.node.name? = some name := by
  cases hname : focus.node.name? with
  | none =>
    obtain ⟨fault, hfault⟩ := text_of_name?_eq_none focus hname hunlinked expected
    rw [hfault] at h
    exact absurd h (Reading.Yields.not_throw fault name)
  | some text =>
    rw [text_of_name? hname expected] at h
    rw [Reading.Yields.pure_iff.1 h]

/-! ## The entries of a table -/

/-- No node of the entries is a reference or has one in it. -/
def Unlinked (entries : List (Node × Node)) : Prop :=
  ∀ entry ∈ entries, entry.1.isUnlinked = true ∧ entry.2.isUnlinked = true

/-- No entry has the name of a field that was met before. -/
def Fresh (names given : List String) (entries : List (Node × Node)) : Prop :=
  ∀ entry ∈ entries, ∀ name ∈ names, entry.1.name? = some name → name ∉ given

/-- **Behind the entry for a field**, whose name counts as met, nothing has a name that was met,
since the field is given only once. -/
theorem Fresh.behind {names given : List String} {entry : Node × Node}
    {entries : List (Node × Node)} (hfresh : Fresh names given (entry :: entries))
    (honce : GivenOnce names (entry :: entries)) {name : String}
    (hname : entry.1.name? = some name) (hknown : name ∈ names) :
    Fresh names (name :: given) entries := by
  intro later hlater next hnext hnextName hmem
  rcases List.mem_cons.1 hmem with rfl | hmem
  · exact (List.pairwise_cons.1 honce).1 later hlater next hnext hname hnextName
  · exact hfresh later (List.mem_cons_of_mem _ hlater) next hnext hnextName hmem

/-- **Leaving out plain nulls thins the entries**, as they are read. -/
theorem LeftOut.thinned (hempty : MayBeEmpty parts start) {entries kept : List (Node × Node)}
    (h : LeftOut (parts.map (·.name)) entries kept) (hunlinked : Unlinked entries)
    (honce : GivenOnce (parts.map (·.name)) entries) {document other : Document}
    (hbroken : other.broken = document.broken) {given : List String}
    (hfresh : Fresh (parts.map (·.name)) given entries) :
    Thinned parts start given (entries.map document.entryAt) (kept.map other.entryAt) := by
  induction h generalizing given with
  | nil => exact .nil given
  | @keep entry entries kept h ih =>
    obtain ⟨⟨hkeyFree, hvalueFree⟩, hunlinked⟩ := List.forall_mem_cons.1 hunlinked
    have hrest := (List.pairwise_cons.1 honce).2
    have hkey : (document.entryAt entry).1.Movable other := ⟨hkeyFree, hbroken⟩
    have hvalue : (document.entryAt entry).2.Movable other := ⟨hvalueFree, hbroken⟩
    have hsame : Focus.text "field identifier" (other.entryAt entry).1
        = Focus.text "field identifier" (document.entryAt entry).1 :=
      KeepsToNode.text _ _ _ hkey
    cases hname : entry.1.name? with
    | none =>
      obtain ⟨fault, hfault⟩ :=
        text_of_name?_eq_none (document.entryAt entry).1 hname hkeyFree "field identifier"
      exact .refused hfault (hsame.trans hfault)
    | some name =>
      have htext : Focus.text "field identifier" (document.entryAt entry).1 = pure name :=
        text_of_name? hname _
      by_cases hknown : ∃ part ∈ parts, part.name = name
      · obtain ⟨part, hpart, rfl⟩ := hknown
        have hknown := List.mem_map_of_mem (f := (·.name)) hpart
        exact .part hpart (hfresh entry (List.mem_cons_self ..) _ hknown hname) htext
          (hsame.trans htext) (hempty.keeps part hpart _ _ hvalue)
          (ih hunlinked hrest (hfresh.behind honce hname hknown))
      · exact .other (fun part hpart hsame => hknown ⟨part, hpart, hsame⟩) htext (hsame.trans htext)
          (KeepsToNode.skip _ _ hvalue)
          (ih hunlinked hrest fun later hlater => hfresh later (List.mem_cons_of_mem _ hlater))
  | @drop key value name entries kept hkeyName hname hnull h ih =>
    obtain ⟨part, hpart, rfl⟩ := List.mem_map.1 hname
    exact .leftOut hpart (hfresh _ (List.mem_cons_self ..) _ hname hkeyName)
      (text_of_name? hkeyName _) (hempty.null part hpart _ hnull)
      (ih (List.forall_mem_cons.1 hunlinked).2 (List.pairwise_cons.1 honce).2
        (hfresh.behind honce hkeyName hname))

/-- **The same is read of a table, or the same fault met, when plain nulls are left out.** -/
theorem readEntriesOf_eq (hlayout : Layout parts) (hempty : MayBeEmpty parts start)
    {entries kept : List (Node × Node)} (h : LeftOut (parts.map (·.name)) entries kept)
    (hunlinked : Unlinked entries) (honce : GivenOnce (parts.map (·.name)) entries)
    {document other : Document} (hbroken : other.broken = document.broken) (whole : Bool) :
    readEntriesOf parts start other kept whole
      = readEntriesOf parts start document entries whole := by
  have hthinned : Thinned parts start [] (entries.map document.entryAt) (kept.map other.entryAt) :=
    h.thinned hempty hunlinked honce hbroken fun _ _ _ _ _ => List.not_mem_nil
  rw [readEntriesOf, readEntriesOf, Document.breakFault_congr hbroken,
    hthinned.readNamed_eq hlayout (fun _ h => h) fun _ _ _ => rfl]

/-- **A field that is absent or left empty is read as it is at the start.** -/
theorem get_of_unfilled (hlayout : Layout parts) (hempty : MayBeEmpty parts start)
    {entries : List (Node × Node)} (hunlinked : Unlinked entries) {document : Document}
    {whole : Bool} {result : ρ}
    (h : (readEntriesOf parts start document entries whole).Yields result)
    {part : Part Focus ρ} (hpart : part ∈ parts) (hunfilled : Unfilled part.name entries) :
    part.get result = part.get start := by
  obtain ⟨record, hrecord, h⟩ := h.of_atPlace.of_bind
  obtain ⟨_, -, h⟩ := h.of_bind
  obtain rfl := Reading.Yields.pure_iff.1 h
  obtain ⟨⟨met, record⟩, hread, rfl⟩ := hrecord.of_map
  obtain ⟨given, hunder, -, hholds⟩ := hlayout.given_of_readNamed hread hpart
  cases given with
  | none => exact hholds
  | some value =>
    obtain ⟨key, hmem, hkey⟩ := hunder.exists_entry
    obtain ⟨entry, hentry, heq⟩ := List.mem_map.1 hmem
    obtain ⟨rfl, rfl⟩ := Prod.mk.inj heq
    have hname : entry.1.name? = some part.name :=
      name?_of_text (document.entryAt entry).1 (hunlinked entry hentry).1 hkey
    rw [Part.Holds, hempty.null part hpart _ (hunfilled entry hentry hname)] at hholds
    exact (Reading.Yields.pure_iff.1 hholds).symm

/-! ## Texts -/

/-- The outcome of a reading is told by the way in which the document breaks off. -/
theorem outcomeOf_congr {α : Type} {document other : Document}
    (h : other.broken = document.broken) (more : Bool) (reading : Reading α) :
    outcomeOf other more reading = outcomeOf document more reading := by
  rw [outcomeOf, outcomeOf, h, Document.breakFault_congr h]

end Reading

end Rulebook.Yaml

namespace Rulebook

open Rulebook.Document Rulebook.Yaml

section Texts

variable {ρ : Type} {parts : List (Part Focus ρ)} {start : ρ} {text stripped : String}
  {entries kept : List (Node × Node)} {ending : Ending}

/-- A document that cannot be read, as an error of the file that it is in. -/
def unreadable (fileName : String) (fault : Fault) : Error :=
  .parse (Error.withContext ("cannot parse " ++ fileName) fault.message) fault.message

/-- A text that is not blank is read as a document. -/
theorem readYaml_of_not_blank {α : Type} (h : Text.allBlank text = false)
    (default : α) (reader : Focus → Reading α) (fileName : String) :
    readYaml default reader fileName text
      = (Yaml.read reader text).mapError (unreadable fileName) := by
  rw [readYaml, if_neg (by simp [h])]
  cases Yaml.read reader text <;> rfl

/-- **A text is read by its entries**, whether there is a table in it or nothing. -/
theorem exists_readYaml_eq (hempty : MayBeEmpty parts start) (h : LaysOut text entries ending)
    (title fileName : String) :
    ∃ document : Yaml.Document, document.broken = ending.broken
      ∧ readYaml start (readRecord title start (parts.map Part.field)) fileName text
        = (outcomeOf document ending.more
            (readEntriesOf parts start document entries ending.whole)).mapError
              (unreadable fileName) := by
  cases h with
  | blank hblank =>
    refine ⟨⟨.void, [], 1, none⟩, rfl, ?_⟩
    rw [readYaml, if_pos hblank]
    rfl
  | @empty hblank document more hdocument hroot =>
    refine ⟨document, rfl, ?_⟩
    rw [readYaml_of_not_blank hblank, read_of_ofText hdocument,
      readRecord_blank hempty.optional title hroot]
    rfl
  | @table hblank document more tag entries whole hdocument hroot =>
    refine ⟨document, rfl, ?_⟩
    rw [readYaml_of_not_blank hblank, read_of_ofText hdocument, hroot,
      readRecord_mapping hempty.optional]

/-- **The same is read of two texts** of which one leaves out plain nulls that the other has. -/
theorem readYaml_eq_of_leftOut (hlayout : Layout parts) (hempty : MayBeEmpty parts start)
    (htext : LaysOut text entries ending) (hstripped : LaysOut stripped kept ending)
    (hunlinked : Unlinked entries) (honce : GivenOnce (parts.map (·.name)) entries)
    (hkept : LeftOut (parts.map (·.name)) entries kept) (title fileName : String) :
    readYaml start (readRecord title start (parts.map Part.field)) fileName stripped
      = readYaml start (readRecord title start (parts.map Part.field)) fileName text := by
  obtain ⟨document, hdocument, hread⟩ := exists_readYaml_eq hempty htext title fileName
  obtain ⟨other, hother, hreadOther⟩ := exists_readYaml_eq hempty hstripped title fileName
  have hbroken : other.broken = document.broken := hother.trans hdocument.symm
  rw [hread, hreadOther, readEntriesOf_eq hlayout hempty hkept hunlinked honce hbroken,
    outcomeOf_congr hbroken]

/-- A record that was read of a text is what there is at the start where nothing was filled in. -/
theorem get_of_readYaml (hlayout : Layout parts) (hempty : MayBeEmpty parts start)
    (htext : LaysOut text entries ending) (hunlinked : Unlinked entries) {title fileName : String}
    {result : ρ}
    (h : readYaml start (readRecord title start (parts.map Part.field)) fileName text = .ok result)
    {part : Part Focus ρ} (hpart : part ∈ parts) (hunfilled : Unfilled part.name entries) :
    part.get result = part.get start := by
  obtain ⟨document, -, hread⟩ := exists_readYaml_eq hempty htext title fileName
  rw [hread] at h
  cases houtcome : outcomeOf document ending.more
      (readEntriesOf parts start document entries ending.whole) with
  | error fault => rw [houtcome] at h; cases h
  | ok read =>
    rw [houtcome] at h
    cases h
    exact get_of_unfilled hlayout hempty hunlinked (yields_of_outcomeOf houtcome) hpart hunfilled

end Texts

/-! ## Metadata -/

namespace WrittenMetadata

/-- **Any field of metadata may be left out or left empty.** -/
theorem mayBeEmpty_parts : MayBeEmpty parts {} where
  optional := by simp [parts]
  keeps := by
    simp only [parts, List.forall_mem_cons]
    exact ⟨.readOption .readValue, .readOr (.text _) _, .readOr (.text _) _, .readOr .int32 _,
      .readOr (.text _) _, .readOr (.text _) _, .readOr (.text _) _,
      .readOr (.readList (.text _)) _, List.forall_mem_nil _⟩
  null := by
    simp only [parts, List.forall_mem_cons]
    exact ⟨fun _ => readOption_of_null _, fun _ => readOr_of_null _ _, fun _ => readOr_of_null _ _,
      fun _ => readOr_of_null _ _, fun _ => readOr_of_null _ _, fun _ => readOr_of_null _ _,
      fun _ => readOr_of_null _ _, fun _ => readOr_of_null _ _, List.forall_mem_nil _⟩

end WrittenMetadata

namespace Metadata

/-- **The fields of metadata.** -/
inductive Field where
  /-- When the problem appears. -/
  | condition
  /-- What the problem is. -/
  | description
  /-- The label of the impact. -/
  | impact
  /-- How likely the problem is. -/
  | likelihood
  /-- When the metadata were published. -/
  | publishDate
  /-- The label of the resolution risk. -/
  | resolutionRisk
  /-- Whether the error key is in use. -/
  | status
  /-- The tags of the error key. -/
  | tags

namespace Field

/-- The name of a field in a document. -/
def name : Field → String
  | condition => "condition"
  | description => "description"
  | impact => "impact"
  | likelihood => "likelihood"
  | publishDate => "publish_date"
  | resolutionRisk => "resolution_risk"
  | status => "status"
  | tags => "tags"

/-- The names of all fields. -/
def names : List String :=
  [condition, description, impact, likelihood, publishDate, resolutionRisk, status, tags].map name

/-- The parts of metadata are its fields. -/
theorem names_parts : WrittenMetadata.parts.map (·.name) = names := rfl

/-- **Nothing stands for a field** in metadata. The labels are then empty, and what they stand for
is what the empty label stands for, or else zero. -/
def IsZero (codes : LabelCodes) (metadata : Metadata) : Field → Prop
  | condition => metadata.condition = ""
  | description => metadata.description = ""
  | impact => metadata.impact = ⟨"", (codes.impact.get? "").getD 0⟩
  | likelihood => metadata.likelihood = 0
  | publishDate => metadata.publishDate = ""
  | resolutionRisk => metadata.resolutionRisk = (codes.resolutionRisk.get? "").getD 0
  | status => metadata.status = ""
  | tags => metadata.tags = []

end Field

/-- A part that holds what there is at the start stands for nothing in what it is resolved to. -/
theorem isZero_of_resolve {written : WrittenMetadata} {codes : LabelCodes} {metadata : Metadata}
    (h : written.resolve codes = .ok metadata) (field : Field)
    (hzero : ∀ part ∈ WrittenMetadata.parts, part.name = field.name →
      part.get written = part.get {}) : field.IsZero codes metadata := by
  obtain ⟨condition, hcondition, h⟩ := bind_eq_ok.1 h
  cases h
  simp only [WrittenMetadata.parts, List.forall_mem_cons] at hzero
  obtain ⟨hnone, hdescription, himpact, hlikelihood, hdate, hrisk, hstatus, htags, -⟩ := hzero
  cases field with
  | condition =>
    rw [show written.condition = none from hnone rfl] at hcondition
    cases hcondition
    rfl
  | description => exact hdescription rfl
  | impact =>
    show Impact.mk written.impact _ = _
    rw [show written.impact = "" from himpact rfl]
    rfl
  | likelihood => exact hlikelihood rfl
  | publishDate => exact hdate rfl
  | resolutionRisk =>
    show (codes.resolutionRisk.get? written.resolutionRisk).getD _ = _
    rw [show written.resolutionRisk = "" from hrisk rfl]
    rfl
  | status => exact hstatus rfl
  | tags => exact htags rfl

/-- **A field that is left empty is one that is left out.** Of two texts one has the entries of the
other but for some that give a plain null for a field, and the same follows the entries of both. The
same metadata are then read of them, or they are refused with the same error. In metadata that were
read nothing stands for a field that is absent or left empty. -/
theorem ofYaml_without_empty_fields {text stripped : String} {entries kept : List (Node × Node)}
    {ending : Ending} (htext : LaysOut text entries ending)
    (hstripped : LaysOut stripped kept ending) (hunlinked : Unlinked entries)
    (honce : GivenOnce Field.names entries) (hkept : LeftOut Field.names entries kept) :
    (∀ codes, ofYaml stripped codes = ofYaml text codes)
      ∧ ∀ codes metadata, ofYaml text codes = .ok metadata →
          ∀ field : Field, Unfilled field.name entries → field.IsZero codes metadata := by
  rw [← Field.names_parts] at honce hkept
  refine ⟨fun codes => ?_, fun codes metadata h field hunfilled => ?_⟩
  · rw [ofYaml, ofYaml, WrittenMetadata.read_eq,
      readYaml_eq_of_leftOut WrittenMetadata.layout_parts WrittenMetadata.mayBeEmpty_parts htext
        hstripped hunlinked honce hkept]
  · obtain ⟨written, hread, h⟩ := bind_eq_ok.1 h
    refine isZero_of_resolve h field fun part hpart hname => ?_
    exact get_of_readYaml WrittenMetadata.layout_parts WrittenMetadata.mayBeEmpty_parts htext
      hunlinked hread hpart (hname ▸ hunfilled)

/-- An entry of which the name and the value are scalars without quotes. -/
def plainEntry (name text : String) : Node × Node :=
  (.scalar none name .plain, .scalar none text .plain)

/-- The entry that gives one tag. -/
def tagsEntry : Node × Node :=
  (.scalar none "tags" .plain, .sequence none [.scalar none "a" .plain] true)

/-- Metadata of which all but the tags are left empty, in each of three ways. -/
def sparseText : String := "\x7bdescription: ~, impact: , likelihood: null, tags: [a]\x7d"

/-- The entries of that text. -/
def sparseEntries : List (Node × Node) := [plainEntry "description" "~", plainEntry "impact" "",
  plainEntry "likelihood" "null", tagsEntry]

theorem laysOut_sparseText : LaysOut sparseText sparseEntries {} := by
  have hevents : Yaml.Event.ofText sparseText.toList = ([.streamStart, .documentStart,
      .mappingStart {}, .scalar {} "description" .plain, .scalar {} "~" .plain,
      .scalar {} "impact" .plain, .scalar {} "" .plain, .scalar {} "likelihood" .plain,
      .scalar {} "null" .plain, .scalar {} "tags" .plain, .sequenceStart {}, .scalar {} "a" .plain,
      .sequenceEnd, .mappingEnd, .documentEnd, .streamEnd], none) := by
    decide +kernel
  exact .table (by decide) (Yaml.Document.ofText_of_events hevents rfl) rfl

/-- The same metadata, where two of the three are left out. -/
def sparserText : String := "\x7bimpact: , tags: [a]\x7d"

theorem ofText_sparserText : Yaml.Document.ofText sparserText.toList
    = (⟨.mapping none [plainEntry "impact" "", tagsEntry] true, [], 8, none⟩, false) := by
  have hevents : Yaml.Event.ofText sparserText.toList = ([.streamStart, .documentStart,
      .mappingStart {}, .scalar {} "impact" .plain, .scalar {} "" .plain, .scalar {} "tags" .plain,
      .sequenceStart {}, .scalar {} "a" .plain, .sequenceEnd, .mappingEnd, .documentEnd,
      .streamEnd], none) := by
    decide +kernel
  exact Yaml.Document.ofText_of_events hevents rfl

/-- An impact without a label is given a number. -/
def emptyLabelCodes : LabelCodes := { impact := Table.insert ∅ "" 7 }

theorem ofYaml_sparserText : ofYaml sparserText emptyLabelCodes
    = .ok { impact := ⟨"", 7⟩, tags := ["a"] } :=
  eq_ok_of_toOption (by decide +kernel)

/-- Both texts are read alike, and what is left empty is zero whether or not it is left out. -/
theorem ofYaml_sparseText :
    ofYaml sparseText emptyLabelCodes = .ok { impact := ⟨"", 7⟩, tags := ["a"] }
      ∧ ∀ codes metadata, ofYaml sparseText codes = .ok metadata → metadata.likelihood = 0 := by
  have hstripped : LaysOut sparserText [plainEntry "impact" "", tagsEntry] {} :=
    .table (by decide) ofText_sparserText rfl
  have hunlinked : Unlinked sparseEntries := Node.entriesUnlinked_iff.1 (by decide)
  have honce : GivenOnce Field.names sparseEntries := by
    unfold GivenOnce
    decide
  have hkept : LeftOut Field.names sparseEntries [plainEntry "impact" "", tagsEntry] := by
    refine .drop rfl ?_ rfl (.keep _ (.drop rfl ?_ rfl (.keep _ .nil))) <;> decide
  have hunfilled : Unfilled Field.likelihood.name sparseEntries := by
    unfold Unfilled
    decide
  obtain ⟨hsame, hzero⟩ :=
    ofYaml_without_empty_fields laysOut_sparseText hstripped hunlinked honce hkept
  exact ⟨(hsame _).symm.trans ofYaml_sparserText,
    fun codes metadata h => hzero codes metadata h .likelihood hunfilled⟩

end Metadata

end Rulebook
