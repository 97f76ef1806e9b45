import Rulebook.Error
import Rulebook.Proofs.RecordReading
import Rulebook.Yaml.Source

/-!
# What a YAML document gives for a field

A field of a record is given by the entry with its name, wherever the entry stands and however its
key is written, and by nothing else in the table (`Gives`). A record that was read holds for each of
its parts what was given (`Layout.gives_of_readRecord`), and a table gives one thing at most
(`Gives.unique`), so that what a document gives for a field can be spoken of without its reading.

The second of these is not plain, since a reading counts the references that it follows and what is
given is read behind a different count in each document. But the count decides only whether a
reading is refused, and not what it yields: readings are **steady**, one after the other, down to
values of any kind (`steady_readValue`).
-/

namespace Rulebook.Document

variable {σ ρ α β : Type}

/-! ## Steady readings -/

/-- **A reading is steady** when the references followed before it do not decide what it yields. -/
def Reading.Steady (reading : Reading α) : Prop :=
  ∀ value other, reading.Yields value → reading.Yields other → value = other

namespace Reading.Steady

theorem pure (value : α) : Steady (Pure.pure value) := by
  intro first second hfirst hsecond
  rw [← Yields.pure_iff.1 hfirst, Yields.pure_iff.1 hsecond]

/-- What is refused yields nothing. -/
theorem throw (fault : Fault) : Steady (MonadExcept.throw fault : Reading α) :=
  fun _ _ h => absurd h (Yields.not_throw _ _)

theorem refuse (cause : Cause) : Steady (Document.refuse cause : Reading α) :=
  throw (Fault.of cause)

/-- There is nothing to decide where nothing is yielded but that the reading goes on. -/
theorem unit (reading : Reading Unit) : reading.Steady := fun _ _ _ _ => rfl

/-- **Steady readings one after the other are steady.** -/
theorem bind {reading : Reading α} {next : α → Reading β} (h : reading.Steady)
    (hnext : ∀ value, (next value).Steady) : Steady (reading >>= next) := by
  intro value other hvalue hother
  obtain ⟨first, hfirst, hvalue⟩ := hvalue.of_bind
  obtain ⟨second, hsecond, hother⟩ := hother.of_bind
  obtain rfl := h first second hfirst hsecond
  exact hnext first value other hvalue hother

theorem map {reading : Reading α} (h : reading.Steady) (f : α → β) : Steady (f <$> reading) := by
  rw [map_eq_pure_bind]
  exact h.bind fun value => pure (f value)

theorem atPlace {reading : Reading α} (h : reading.Steady) (place : Place) :
    Steady (Document.atPlace place reading) :=
  fun value other hvalue hother => h value other hvalue.of_atPlace hother.of_atPlace

theorem mapM {read : σ → Reading α} (h : ∀ part, (read part).Steady) (parts : List σ) :
    Steady (parts.mapM read) := by
  induction parts with
  | nil => exact pure []
  | cons part rest ih =>
    rw [List.mapM_cons]
    exact (h part).bind fun value => ih.bind fun values => pure (value :: values)

theorem readParts {read : σ → Reading α} (h : ∀ part, (read part).Steady) (run : Run σ) :
    Steady (Document.readParts read run) :=
  (mapM h run.parts).bind fun values => (unit run.finish).bind fun _ => pure values

end Reading.Steady

/-! ## What is given under a name -/

section Given

variable [Source σ]

/-- **What entries give under a name.** All keys are texts, one of them at most is the name, and
what is given is the value behind it. -/
inductive GivenUnder (name : String) : List (σ × σ) → Option σ → Prop
  /-- Nothing is given where there are no entries. -/
  | nil : GivenUnder name [] none
  /-- The value behind the name is given, when the name does not come again. -/
  | here {key value : σ} {rest : List (σ × σ)}
    (hkey : (Source.text "field identifier" key).Yields name) (hrest : GivenUnder name rest none) :
    GivenUnder name ((key, value) :: rest) (some value)
  /-- What stands behind another name is not given. -/
  | there {key value : σ} {rest : List (σ × σ)} {other : String} {given : Option σ}
    (hkey : (Source.text "field identifier" key).Yields other) (hne : other ≠ name)
    (hrest : GivenUnder name rest given) : GivenUnder name ((key, value) :: rest) given

/-- **What a value gives for a field**, as a table with any other entries. -/
def Gives (title name : String) (cursor : σ) (given : Option σ) : Prop :=
  ∃ run, (Source.fields title cursor).Yields (.named run) ∧ GivenUnder name run.parts given

/-- What entries give under a name is the value of one of them. -/
theorem GivenUnder.exists_entry {name : String} {entries : List (σ × σ)} {value : σ}
    (h : GivenUnder name entries (some value)) :
    ∃ key, (key, value) ∈ entries ∧ (Source.text "field identifier" key).Yields name := by
  induction entries with
  | nil => cases h
  | cons entry rest ih =>
    cases h with
    | here hkey _ => exact ⟨_, List.mem_cons_self .., hkey⟩
    | there _ _ hrest =>
      obtain ⟨key, hmem, hkey⟩ := ih hrest
      exact ⟨key, List.mem_cons_of_mem _ hmem, hkey⟩

/-- Entries give one thing under a name when their keys are steady texts. -/
theorem GivenUnder.unique {name : String} {entries : List (σ × σ)} {given other : Option σ}
    (hsteady : ∀ key : σ, (Source.text "field identifier" key).Steady)
    (h : GivenUnder name entries given) (hother : GivenUnder name entries other) :
    given = other := by
  induction h generalizing other with
  | nil =>
    cases hother
    rfl
  | here hkey hrest ih =>
    -- a steady key is not the name in one reading and another text in the next
    cases hother with
    | here hkey' hrest' => rfl
    | there hkey' hne' hrest' => exact absurd (hsteady _ _ _ hkey' hkey) hne'
  | there hkey hne hrest ih =>
    cases hother with
    | here hkey' hrest' => exact absurd (hsteady _ _ _ hkey hkey') hne
    | there hkey' hne' hrest' => exact ih hrest'

/-- So does a value for a field. -/
theorem Gives.unique {title name : String} {cursor : σ} {given other : Option σ}
    (hsteady : ∀ key : σ, (Source.text "field identifier" key).Steady)
    (hfields : (Source.fields title cursor).Steady) (h : Gives title name cursor given)
    (hother : Gives title name cursor other) : given = other := by
  obtain ⟨run, hrun, h⟩ := h
  obtain ⟨next, hnext, hother⟩ := hother
  cases hfields _ _ hrun hnext
  exact h.unique hsteady hother

variable {parts : List (Part σ ρ)} {part : Part σ ρ} {start record result : ρ}

/-- What is known of a part behind the entries of a table. `met` are the fields met before. -/
theorem Layout.given_of_readNamed (hlayout : Layout parts) {entries : List (σ × σ)}
    {met met' : List String}
    (h : (readNamed (parts.map Part.field) entries met record).Yields (met', result))
    (hpart : part ∈ parts) :
    ∃ given, GivenUnder part.name entries given ∧ (part.name ∈ met → given = none)
      ∧ part.Holds given record result := by
  induction entries generalizing met record with
  | nil =>
    cases Reading.Yields.pure_iff.1 h
    exact ⟨none, .nil, fun _ => rfl, rfl⟩
  | cons entry rest ih =>
    obtain ⟨key, value⟩ := entry
    rw [readNamed] at h
    obtain ⟨name, hname, h⟩ := h.of_bind
    cases hfield : (parts.map Part.field).find? (·.name == name) with
    | none =>
      rw [hfield] at h
      obtain ⟨-, -, h⟩ := h.of_bind
      obtain ⟨given, hgiven, hmet, hholds⟩ := ih h
      exact ⟨given, .there hname (name_ne_of_find? hfield hpart).symm hgiven, hmet, hholds⟩
    | some field =>
      obtain ⟨other, hother, rfl, rfl⟩ := exists_part_of_find? hfield
      rw [hfield] at h
      by_cases hmet : other.name ∈ met
      · simp only [List.contains_iff_mem.2 hmet, if_true] at h
        obtain ⟨_, hrefused, -⟩ := h.of_bind
        exact absurd hrefused (Reading.Yields.not_refuse _ _)
      · simp only [List.contains_iff_mem, hmet, if_false] at h
        obtain ⟨change, hchange, h⟩ := h.of_bind
        obtain ⟨stored, hstored, rfl⟩ := hchange.of_map
        obtain ⟨given, hgiven, hbehind, hholds⟩ := ih h
        by_cases hsame : other.name = part.name
        · -- the part is this one, and nothing behind it has its name
          cases hlayout.eq_of_name hother hpart hsame
          obtain rfl := hbehind (List.mem_cons_self ..)
          have hget : part.get result = stored :=
            hholds.trans (hlayout.get_set part hpart stored record)
          refine ⟨some value, .here hname hgiven, fun h => absurd h hmet, ?_⟩
          rw [Part.Holds, hget]
          exact hstored
        · refine ⟨given, .there hname hsame hgiven,
            fun h => hbehind (List.mem_cons_of_mem _ h), ?_⟩
          exact hholds.of_eq
            (hlayout.get_set_of_ne part hpart other hother (Ne.symm hsame) stored record)

/-- **A record holds for each part what was given for it**, when it was read from a table. -/
theorem Layout.gives_of_readRecord (hlayout : Layout parts) {title : String} {cursor : σ}
    (hwithin : ∀ (reading : Reading ρ) (value : ρ),
      (Source.within cursor reading).Yields value → reading.Yields value)
    (hfields : ∀ fields, (Source.fields title cursor).Yields fields → ∃ run, fields = .named run)
    (h : (readRecord title start (parts.map Part.field) cursor).Yields result)
    (hpart : part ∈ parts) :
    ∃ given, Gives title part.name cursor given ∧ part.Holds given start result := by
  obtain ⟨fields, hgiven, h⟩ := (hwithin _ _ h).of_bind
  obtain ⟨run, rfl⟩ := hfields fields hgiven
  obtain ⟨⟨met, record⟩, hread, h⟩ := h.of_bind
  obtain ⟨_, -, h⟩ := h.of_bind
  obtain ⟨given, hunder, -, hholds⟩ := hlayout.given_of_readNamed hread hpart
  cases hmissing : (parts.map Part.field).find? fun field =>
      field.needed && !met.contains field.name with
  | some field =>
    rw [hmissing] at h
    exact absurd h (Reading.Yields.not_refuse _ _)
  | none =>
    rw [hmissing] at h
    cases Reading.Yields.pure_iff.1 h
    exact ⟨given, ⟨run, hgiven, hunder⟩, hholds⟩

end Given

end Rulebook.Document

namespace Rulebook.Yaml

open Rulebook.Document
open Rulebook.Document.Reading

/-! ## YAML is steady -/

/-- A node of the wrong kind yields nothing. -/
theorem not_yields_mismatch {α : Type} (node : Node) (expected : String) (value : α) :
    ¬ (mismatch node expected).Yields value := by
  unfold mismatch
  split
  · split
    · exact Yields.not_refuse _ _
    · exact Yields.not_throw _ _
  · exact Yields.not_refuse _ _
  · exact Yields.not_refuse _ _
  · exact Yields.not_refuse _ _

theorem steady_mismatch {α : Type} (node : Node) (expected : String) :
    (mismatch node expected : Reading α).Steady :=
  fun _ _ h => absurd h (not_yields_mismatch node expected _)

namespace Focus

/-- A reference leads to the node that carries the anchor. -/
theorem anchor?_of_resolve {focus target : Focus} {anchor : Nat}
    (hnode : focus.node = .alias anchor) (h : focus.resolve.Yields target) :
    ∃ node, focus.document.anchor? anchor = some node ∧ target = { focus with node } := by
  unfold resolve at h
  rw [hnode] at h
  obtain ⟨jumps, -, h⟩ := Yields.of_bind h
  obtain ⟨_, -, h⟩ := h.of_bind
  dsimp only at h
  by_cases hlimit : focus.document.size * jumpsPerEvent < jumps + 1
  · rw [if_pos hlimit] at h
    obtain ⟨_, hrefused, -⟩ := h.of_bind
    exact absurd hrefused (Yields.not_refuse _ _)
  · rw [if_neg hlimit] at h
    cases hanchor : focus.document.anchor? anchor with
    | none =>
      rw [hanchor] at h
      exact absurd h (Yields.not_refuse _ _)
    | some node =>
      rw [hanchor] at h
      exact ⟨node, rfl, (Yields.pure_iff.1 h).symm⟩

/-- It does so however many references were followed before it. -/
theorem steady_resolve (focus : Focus) : focus.resolve.Steady := by
  by_cases hreference : ∃ anchor, focus.node = .alias anchor
  · obtain ⟨anchor, hnode⟩ := hreference
    intro target other htarget hother
    obtain ⟨node, hanchor, rfl⟩ := anchor?_of_resolve hnode htarget
    obtain ⟨next, hnext, rfl⟩ := anchor?_of_resolve hnode hother
    cases hanchor.symm.trans hnext
    rfl
  · unfold resolve
    split
    next => exact .throw _
    next anchor hnode => exact absurd ⟨anchor, hnode⟩ hreference
    next => exact .pure focus

theorem steady_text (expected : String) (focus : Focus) : (focus.text expected).Steady := by
  refine Steady.atPlace (focus.steady_resolve.bind fun target => ?_) _
  split
  · exact .pure _
  · exact steady_mismatch _ _

theorem steady_enterItems (focus : Focus) (items : List Node) (whole : Bool) :
    (focus.enterItems items whole).Steady := by
  unfold enterItems
  split
  · exact .refuse _
  · exact .pure _

theorem steady_enterEntries (focus : Focus) (entries : List (Node × Node)) (whole : Bool) :
    (focus.enterEntries entries whole).Steady := by
  unfold enterEntries
  split
  · exact .refuse _
  · exact .pure _

theorem steady_fields (title : String) (focus : Focus) : (focus.fields title).Steady := by
  refine focus.steady_resolve.bind fun target => ?_
  split
  · exact (target.steady_enterEntries _ _).map _
  · split
    · exact .pure _
    · exact steady_mismatch _ _

theorem steady_optional (focus : Focus) : focus.optional.Steady := by
  refine focus.steady_resolve.bind fun target => ?_
  split
  · exact .pure _
  · split
    · exact .pure _
    · split
      · split
        · exact .pure _
        · exact .refuse _
      · exact .pure _
  · exact .pure _

/-- A record is given as a table and never as a list. -/
theorem named_of_fields {title : String} {focus : Focus} {fields : Fields Focus}
    (h : (focus.fields title).Yields fields) : ∃ run, fields = .named run := by
  obtain ⟨target, -, h⟩ := Yields.of_bind h
  split at h
  · obtain ⟨run, -, rfl⟩ := h.of_map
    exact ⟨run, rfl⟩
  · split at h
    · cases Yields.pure_iff.1 h
      exact ⟨_, rfl⟩
    · exact absurd h (not_yields_mismatch _ _ _)

end Focus

theorem steady_value (meaning : Meaning) : meaning.value.Steady := by
  unfold Meaning.value
  split
  · exact .pure _
  · exact .pure _
  · split
    · exact .pure _
    · exact .refuse _
  · exact .pure _
  · exact .pure _

theorem steady_readValueEntries {read : Focus → Reading Value} (h : ∀ focus, (read focus).Steady)
    (entries : List (Focus × Focus)) (done : List (Value × Value)) :
    (readValueEntries read entries done).Steady := by
  induction entries generalizing done with
  | nil => exact .pure done
  | cons entry rest ih =>
    exact (h entry.1).bind fun key => (Steady.unit (checkKey done key)).bind fun _ =>
      (h entry.2).bind fun value => ih _

/-- **Values of any kind are steady**, since those a level below are. -/
theorem steady_readValueAt (depth : Nat) (focus : Focus) : (readValueAt depth focus).Steady := by
  -- on the levels and not on the node, since a reference may lead to a node of any size
  induction depth using Nat.strongRecOn generalizing focus with | ind depth ih =>
  unfold readValueAt
  refine Steady.atPlace (focus.steady_resolve.bind fun target => ?_) _
  dsimp only
  split
  · split
    · exact (steady_value _).bind fun _ => .pure _
    · exact (Steady.throw _).bind fun _ => .pure _
  · split
    · exact (Steady.refuse _).bind fun _ => .pure _
    next below =>
      exact (target.steady_enterItems _ _).bind fun run =>
        ((Steady.readParts (ih below below.lt_succ_self) run).map _).bind fun _ => .pure _
  · split
    · exact (Steady.refuse _).bind fun _ => .pure _
    next below =>
      exact (target.steady_enterEntries _ _).bind fun run =>
        (steady_readValueEntries (ih below below.lt_succ_self) _ _).bind fun _ =>
          (Steady.unit _).bind fun _ => .pure _
  · exact .pure _

/-- **Any value that may be absent is steady.** -/
theorem steady_readOption_readValue (focus : Focus) : (readOption readValue focus).Steady := by
  refine focus.steady_optional.bind fun target => ?_
  cases target with
  | none => exact .pure none
  | some target => exact (steady_readValueAt _ target).map some

/-- **What a YAML document gives for a field is one thing.** -/
theorem gives_unique {title name : String} {focus : Focus} {given other : Option Focus}
    (h : Gives title name focus given) (hother : Gives title name focus other) : given = other :=
  h.unique (Focus.steady_text _) (focus.steady_fields title) hother

/-! ## Whole texts -/

/-- What comes of a reading of a document, behind which the document may break off or another one
follow. -/
def outcomeOf {α : Type} (document : Document) (more : Bool) (reading : Reading α) :
    Except Fault α := do
  let value ← reading.value
  if document.broken.isSome then throw document.breakFault
  if more then throw (.of .moreThanOneDocument)
  pure value

/-- A text is read at the root of its document. -/
theorem read_of_ofText {α : Type} {reader : Focus → Reading α} {text : String}
    {document : Document} {more : Bool} (h : Document.ofText text.toList = (document, more)) :
    Yaml.read reader text
      = outcomeOf document more (reader ⟨document.root, [], maxDepth, document⟩) := by
  rw [Yaml.read, h]
  rfl

/-- What was read without a fault is what the reading yields. -/
theorem yields_of_outcomeOf {α : Type} {document : Document} {more : Bool} {reading : Reading α}
    {value : α} (h : outcomeOf document more reading = .ok value) : reading.Yields value := by
  obtain ⟨read, hread, h⟩ := bind_eq_ok.1 h
  refine .of_value (hread.trans (congrArg _ ?_))
  dsimp only at h
  split at h
  · cases h
  · split at h
    · cases h
    · exact Except.ok.inj h

/-- The root of the document that a text is. -/
def Focus.root (text : String) : Focus :=
  let document := (Document.ofText text.toList).1
  { node := document.root, place := [], depth := maxDepth, document }

/-- **What is read of a text is read at its root.** -/
theorem yields_of_read {α : Type} {reader : Focus → Reading α} {text : String} {value : α}
    (h : Yaml.read reader text = .ok value) : (reader (Focus.root text)).Yields value := by
  rw [read_of_ofText rfl] at h
  exact yields_of_outcomeOf h

/-- **A record that was read from YAML holds for each part what was given for it.** -/
theorem gives_of_readRecord {ρ : Type} {parts : List (Part Focus ρ)} (hlayout : Layout parts)
    {title : String} {start result : ρ} {focus : Focus}
    (h : (readRecord title start (parts.map Part.field) focus).Yields result)
    {part : Part Focus ρ} (hpart : part ∈ parts) :
    ∃ given, Gives title part.name focus given ∧ part.Holds given start result :=
  hlayout.gives_of_readRecord (fun _ _ h => h.of_atPlace) (fun _ h => Focus.named_of_fields h) h
    hpart

end Rulebook.Yaml
