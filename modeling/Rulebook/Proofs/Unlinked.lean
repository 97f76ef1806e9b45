import Rulebook.Yaml.Source

/-!
# Nodes without references

A reference is looked up in the document, so what is read of a node may depend on all of the
document that it stands in. Of an **unlinked** node, in which there is no reference at any depth,
only the node is read, and the document has a say in nothing but the words for where its text breaks
off. A reader that respects this **keeps to its node** (`KeepsToNode`), and the readers of texts,
numbers, lists, values that may be absent and values of any kind all do.
-/

namespace Rulebook.Yaml

open Rulebook.Document

namespace Node

mutual

/-- **Whether no reference is in a node.** -/
def isUnlinked : Node → Bool
  | .alias _ => false
  | .sequence _ items _ => areUnlinked items
  | .mapping _ entries _ => entriesUnlinked entries
  | _ => true

/-- `isUnlinked` for all items. -/
def areUnlinked : List Node → Bool
  | [] => true
  | node :: rest => node.isUnlinked && areUnlinked rest

/-- `isUnlinked` for all keys and values. -/
def entriesUnlinked : List (Node × Node) → Bool
  | [] => true
  | (key, value) :: rest => key.isUnlinked && value.isUnlinked && entriesUnlinked rest

end

theorem areUnlinked_iff {items : List Node} :
    areUnlinked items = true ↔ ∀ node ∈ items, node.isUnlinked = true := by
  induction items with
  | nil => simp [areUnlinked]
  | cons node rest ih => simp [areUnlinked, ih]

theorem entriesUnlinked_iff {entries : List (Node × Node)} :
    entriesUnlinked entries = true
      ↔ ∀ entry ∈ entries, entry.1.isUnlinked = true ∧ entry.2.isUnlinked = true := by
  induction entries with
  | nil => simp [entriesUnlinked]
  | cons entry rest ih => simp [entriesUnlinked, ih, and_assoc]

end Node

/-! ## The same node in another document -/

/-- What is met where a document breaks off is told by how it breaks off. -/
theorem Document.breakFault_congr {document other : Document}
    (h : document.broken = other.broken) : document.breakFault = other.breakFault := by
  rw [breakFault, breakFault, h]

namespace Focus

/-- **A node in another document**, at the same place. -/
def inDocument (focus : Focus) (document : Document) : Focus := { focus with document }

variable {focus : Focus} {document : Document}

/-- The focus is at an unlinked node, and another document breaks off as its own does. -/
structure Movable (focus : Focus) (document : Document) : Prop where
  /-- No reference is in the node. -/
  unlinked : focus.node.isUnlinked = true
  /-- The documents break off in the same way. -/
  broken : document.broken = focus.document.broken

namespace Movable

variable {α : Type}

/-- **An unlinked node is resolved to itself**, if it is there at all. -/
theorem resolve_bind (h : Movable focus document) {next other : Focus → Reading α}
    (hnext : next (focus.inDocument document) = other focus) :
    ((focus.inDocument document).resolve >>= next) = focus.resolve >>= other := by
  obtain ⟨node, place, depth, own⟩ := focus
  obtain ⟨hunlinked, hbroken⟩ := h
  cases node with
  | «alias» anchor => cases hunlinked
  | cut =>
    show (throw document.breakFault >>= next) = throw own.breakFault >>= other
    rw [Document.breakFault_congr hbroken]
    rfl
  | void | scalar | sequence | mapping => exact hnext

/-- What is met behind the last part is the same. -/
theorem ending_eq (h : Movable focus document) (whole : Bool) :
    (focus.inDocument document).ending whole = focus.ending whole := by
  rw [ending, ending, inDocument, Document.breakFault_congr h.broken]

/-- The parts of an unlinked node are unlinked. -/
theorem part (h : Movable focus document) (step : Step) {node : Node}
    (hnode : node.isUnlinked = true) : Movable (focus.part step node) document :=
  ⟨hnode, h.broken⟩

/-- **The items of a list are entered in either document.** -/
theorem enterItems_bind (h : Movable focus document) {items : List Node} (whole : Bool)
    (hitems : ∀ node ∈ items, node.isUnlinked = true) {next other : Run Focus → Reading α}
    (hnext : ∀ parts ending, (∀ part ∈ parts, Movable part document) →
      next ⟨parts.map (·.inDocument document), ending⟩ = other ⟨parts, ending⟩) :
    ((focus.inDocument document).enterItems items whole >>= next)
      = focus.enterItems items whole >>= other := by
  unfold enterItems
  show ((if focus.depth == 0 then _ else _) >>= next) = _
  split
  · rfl
  · rw [h.ending_eq, pure_bind, pure_bind]
    have hparts : ∀ part ∈ items.zipIdx.map fun item => focus.part (.index item.2) item.1,
        Movable part document := by
      intro part hpart
      obtain ⟨item, hitem, rfl⟩ := List.mem_map.1 hpart
      exact h.part _ (hitems item.1 (List.fst_mem_of_mem_zipIdx hitem))
    have hmoved := hnext _ (focus.ending whole) hparts
    rw [List.map_map] at hmoved
    exact hmoved

/-- **So are the entries of a table.** -/
theorem enterEntries_bind (h : Movable focus document) {entries : List (Node × Node)} (whole : Bool)
    (hentries : ∀ entry ∈ entries, entry.1.isUnlinked = true ∧ entry.2.isUnlinked = true)
    {next other : Run (Focus × Focus) → Reading α}
    (hnext : ∀ parts ending,
      (∀ part ∈ parts, Movable part.1 document ∧ Movable part.2 document) →
      next ⟨parts.map fun part => (part.1.inDocument document, part.2.inDocument document), ending⟩
        = other ⟨parts, ending⟩) :
    ((focus.inDocument document).enterEntries entries whole >>= next)
      = focus.enterEntries entries whole >>= other := by
  unfold enterEntries
  show ((if focus.depth == 0 then _ else _) >>= next) = _
  split
  · rfl
  · rw [h.ending_eq, pure_bind, pure_bind]
    have hparts : ∀ part ∈ entries.map fun entry =>
          ({ focus with node := entry.1, depth := focus.depth - 1 },
            focus.part (keyStep entry.1) entry.2),
        Movable part.1 document ∧ Movable part.2 document := by
      intro part hpart
      obtain ⟨entry, hentry, rfl⟩ := List.mem_map.1 hpart
      obtain ⟨hkey, hvalue⟩ := hentries _ hentry
      exact ⟨⟨hkey, h.broken⟩, h.part _ hvalue⟩
    have hmoved := hnext _ (focus.ending whole) hparts
    rw [List.map_map] at hmoved
    exact hmoved

/-- A value that is there is there in either document. -/
theorem optional_bind (h : Movable focus document) {next other : Option Focus → Reading α}
    (hnone : next none = other none)
    (hsome : next (some (focus.inDocument document)) = other (some focus)) :
    ((focus.inDocument document).optional >>= next) = focus.optional >>= other := by
  unfold optional
  rw [bind_assoc, bind_assoc]
  refine h.resolve_bind ?_
  obtain ⟨node, place, depth, own⟩ := focus
  dsimp only [inDocument] at hsome ⊢
  split
  · exact hnone
  · split
    · split
      · exact hnone
      · exact hsome
    · split
      · split
        · exact hnone
        · rfl
      · exact hsome
  · exact hsome

end Movable

end Focus

/-- **A reader keeps to its node** when it reads the same of an unlinked node in any document that
breaks off in the same way. -/
def KeepsToNode {α : Type} (read : Focus → Reading α) : Prop :=
  ∀ focus document, focus.Movable document → read (focus.inDocument document) = read focus

namespace KeepsToNode

variable {α β : Type}

theorem text (expected : String) : KeepsToNode (Focus.text expected) := by
  intro focus document h
  exact congrArg (atPlace focus.place) (h.resolve_bind rfl)

theorem int32 : KeepsToNode Focus.int32 := by
  intro focus document h
  exact congrArg (atPlace focus.place) (h.resolve_bind rfl)

theorem skip : KeepsToNode Focus.skip := by
  intro focus document h
  rw [Focus.skip, Focus.skip, Focus.inDocument, Document.breakFault_congr h.broken]

/-- A value that may be absent. -/
theorem readOption {read : Focus → Reading α} (hread : KeepsToNode read) :
    KeepsToNode (Document.readOption read) := by
  intro focus document h
  refine h.optional_bind rfl ?_
  exact congrArg (some <$> ·) (hread focus document h)

/-- A value whose absence stands for a given one. -/
theorem readOr {read : Focus → Reading α} (hread : KeepsToNode read) (absent : α) :
    KeepsToNode (Document.readOr absent read) := by
  intro focus document h
  exact congrArg ((·.getD absent) <$> ·) (hread.readOption focus document h)

/-- Parts that are read one after the other. -/
theorem readParts_map {read : Focus → Reading α} (hread : KeepsToNode read) {document : Document}
    {parts : List Focus} (hparts : ∀ part ∈ parts, part.Movable document) (ending : Option Fault) :
    Document.readParts read ⟨parts.map (·.inDocument document), ending⟩
      = Document.readParts read ⟨parts, ending⟩ := by
  have hmapM : (parts.map (·.inDocument document)).mapM read = parts.mapM read := by
    induction parts with
    | nil => rfl
    | cons part rest ih =>
      obtain ⟨hpart, hrest⟩ := List.forall_mem_cons.1 hparts
      rw [List.map_cons, List.mapM_cons, List.mapM_cons, hread part document hpart, ih hrest]
  unfold Document.readParts
  dsimp only
  rw [hmapM]
  rfl

/-- Entries that are read one after the other. -/
theorem readValueEntries_map {read : Focus → Reading Value} (hread : KeepsToNode read)
    {document : Document} {parts : List (Focus × Focus)}
    (hparts : ∀ part ∈ parts, part.1.Movable document ∧ part.2.Movable document)
    (done : List (Value × Value)) :
    readValueEntries read
        (parts.map fun part => (part.1.inDocument document, part.2.inDocument document)) done
      = readValueEntries read parts done := by
  induction parts generalizing done with
  | nil => rfl
  | cons part rest ih =>
    obtain ⟨⟨hkey, hvalue⟩, hrest⟩ := List.forall_mem_cons.1 hparts
    rw [List.map_cons, readValueEntries, readValueEntries, hread _ _ hkey]
    refine bind_congr fun key => bind_congr fun _ => ?_
    rw [hread _ _ hvalue]
    exact bind_congr fun value => ih hrest _

/-- **A list.** -/
theorem readList {read : Focus → Reading α} (hread : KeepsToNode read) :
    KeepsToNode (Document.readList read) := by
  intro focus document h
  refine congrArg (atPlace focus.place) ?_
  show ((focus.inDocument document).items >>= _) = focus.items >>= _
  unfold Focus.items
  rw [bind_assoc, bind_assoc]
  refine h.resolve_bind ?_
  obtain ⟨node, place, depth, own⟩ := focus
  cases node with
  | «alias» anchor => exact absurd h.unlinked Bool.false_ne_true
  | sequence tag items whole =>
    exact h.enterItems_bind whole (Node.areUnlinked_iff.1 h.unlinked) fun _ ending hparts =>
      hread.readParts_map hparts ending
  | void | cut | scalar | mapping => rfl

/-- **Values of any kind.** -/
theorem readValueAt (depth : Nat) : KeepsToNode (Yaml.readValueAt depth) := by
  induction depth using Nat.strongRecOn with | ind depth ih =>
  intro focus document h
  unfold Yaml.readValueAt
  refine congrArg (atPlace focus.place) (h.resolve_bind ?_)
  obtain ⟨node, place, levels, own⟩ := focus
  cases node with
  | «alias» anchor => exact absurd h.unlinked Bool.false_ne_true
  | sequence tag items whole =>
    cases depth with
    | zero => rfl
    | succ below =>
      refine h.enterItems_bind whole (Node.areUnlinked_iff.1 h.unlinked) fun _ ending hparts => ?_
      rw [(ih below below.lt_succ_self).readParts_map hparts ending]
      rfl
  | mapping tag entries whole =>
    cases depth with
    | zero => rfl
    | succ below =>
      refine h.enterEntries_bind whole (Node.entriesUnlinked_iff.1 h.unlinked)
        fun _ ending hparts => ?_
      dsimp only
      rw [(ih below below.lt_succ_self).readValueEntries_map hparts []]
      rfl
  | void | cut | scalar => rfl

theorem readValue : KeepsToNode Yaml.readValue :=
  fun focus document h => readValueAt focus.depth focus document h

end KeepsToNode

end Rulebook.Yaml
