import Rulebook.Yaml.Event

/-!
# The documents of a YAML text

The events of a document form a tree, and the tree is kept with its references unresolved: a
reference leads to the node that carries the anchor, which may be a node around it, so following
references is left to whoever reads and can count.

A text may break off in the middle of a document. What came before is still a tree; its open lists
and tables are then not **whole**, and a value that never came is **cut**.

An anchor gets the number of distinct names given so far. A name that is given again does not
count as a new one, so the next new name shares its number, and of two nodes with one number the
later is meant.
-/

namespace Rulebook.Yaml

/-- **A node of a document.** -/
inductive Node where
  /-- There is no document. -/
  | void
  /-- The text breaks off before the node. -/
  | cut
  /-- A reference to an anchor, by its number. -/
  | alias (anchor : Nat)
  /-- A scalar. -/
  | scalar (tag : Option String) (text : String) (style : ScalarStyle)
  /-- A list, and whether it is whole. -/
  | sequence (tag : Option String) (items : List Node) (whole : Bool)
  /-- A table, and whether it is whole. -/
  | mapping (tag : Option String) (entries : List (Node × Node)) (whole : Bool)
deriving Inhabited, Repr

namespace Node

mutual

/-- **Whether the text of a node is complete.** -/
def isComplete : Node → Bool
  | .cut => false
  | .sequence _ items whole => whole && areComplete items
  | .mapping _ entries whole => whole && entriesComplete entries
  | _ => true

/-- `isComplete` for all items. -/
def areComplete : List Node → Bool
  | [] => true
  | node :: rest => node.isComplete && areComplete rest

/-- `isComplete` for all keys and values. -/
def entriesComplete : List (Node × Node) → Bool
  | [] => true
  | (key, value) :: rest => key.isComplete && value.isComplete && entriesComplete rest

end

end Node

/-- **A node with an anchor.** -/
structure Anchored where
  /-- The number of the anchor. -/
  anchor : Nat
  /-- How many events precede the node. -/
  position : Nat
  /-- The node. -/
  node : Node

/-- Why a document breaks off. -/
inductive Break where
  /-- The text is not well-formed, in words. -/
  | malformed (reason : String)
  /-- A reference to a name that was not given. -/
  | unknownAnchor

/-- **A document.** -/
structure Document where
  /-- The outermost node. -/
  root : Node
  /-- The nodes with anchors. -/
  anchored : List Anchored
  /-- How many events the document has. -/
  size : Nat
  /-- Why it breaks off, if it does. -/
  broken : Option Break

/-- The node that a reference means: the last one with its number. -/
def Document.anchor? (document : Document) (anchor : Nat) : Option Node :=
  let found := document.anchored.foldl (fun best candidate =>
    if candidate.anchor != anchor then best
    else match best with
      | none => some candidate
      | some earlier =>
        if earlier.position < candidate.position then some candidate else some earlier)
    (none : Option Anchored)
  found.map (·.node)

/-- An open list or table. -/
inductive Frame where
  /-- A list: its tag, its anchor and position, and the items so far, last first. -/
  | sequence (tag : Option String) (anchor : Option Nat) (position : Nat) (items : List Node)
  /-- A table: its tag, its anchor and position, the entries so far, last first, and the key whose
  value is still to come. -/
  | mapping (tag : Option String) (anchor : Option Nat) (position : Nat)
      (entries : List (Node × Node)) (key : Option Node)

/-- **A document that is being built.** -/
structure Builder where
  /-- The open lists and tables, innermost first. -/
  frames : List Frame := []
  /-- The outermost node, once it is complete. -/
  root : Option Node := none
  /-- The names given so far, and their numbers. -/
  names : List (String × Nat) := []
  /-- The nodes with anchors. -/
  anchored : List Anchored := []
  /-- How many events were taken. -/
  size : Nat := 0

namespace Builder

/-- Takes a number for an anchor. -/
def giveNumber (b : Builder) : Option String → Option Nat × Builder
  | none => (none, b)
  | some name =>
    let number := b.names.length
    (some number, { b with names := (name, number) :: b.names.filter (·.1 != name) })

/-- Notes a node with its anchor. -/
def note (b : Builder) (anchor : Option Nat) (position : Nat) (node : Node) : Builder :=
  match anchor with
  | none => b
  | some anchor => { b with anchored := ⟨anchor, position, node⟩ :: b.anchored }

/-- Puts a complete node where it belongs. -/
def attach (b : Builder) (node : Node) : Builder :=
  match b.frames with
  | [] => { b with root := some node }
  | .sequence tag anchor position items :: rest =>
    { b with frames := .sequence tag anchor position (node :: items) :: rest }
  | .mapping tag anchor position entries none :: rest =>
    { b with frames := .mapping tag anchor position entries (some node) :: rest }
  | .mapping tag anchor position entries (some key) :: rest =>
    { b with frames := .mapping tag anchor position ((key, node) :: entries) none :: rest }

/-- Closes the innermost list or table. -/
def close (b : Builder) (whole : Bool) : Builder :=
  match b.frames with
  | [] => b
  | .sequence tag anchor position items :: rest =>
    let node := Node.sequence tag items.reverse whole
    ({ b with frames := rest }.note anchor position node).attach node
  | .mapping tag anchor position entries key :: rest =>
    let entries := match key with
      | none => entries
      | some key => (key, .cut) :: entries
    let node := Node.mapping tag entries.reverse whole
    ({ b with frames := rest }.note anchor position node).attach node

/-- Closes all lists and tables that are still open. -/
def closeAll : Nat → Builder → Builder
  | 0, b => b
  | fuel + 1, b => if b.frames.isEmpty then b else closeAll fuel (b.close false)

/-- The document that was built. Without an event there is no document, or none that can be
read. -/
def finish (b : Builder) (broken : Option Break) : Document :=
  let b := closeAll b.frames.length b
  let root := match b.root with
    | some node => node
    | none => if broken.isSome then .cut else .void
  ⟨root, b.anchored, max b.size 1, broken⟩

/-- Takes the events of a document. The answer has the document and the events behind it; none
when the document did not come to its end. -/
def take : List Event → Option String → Builder → Document × Option (List Event)
  | [], fault, b => (b.finish (some (.malformed (fault.getD "unexpected end of the events"))), none)
  | event :: rest, fault, b =>
    match event with
    | .streamStart | .documentStart => take rest fault b
    | .streamEnd => (b.finish none, some [])
    | .documentEnd => (b.finish none, some rest)
    | .alias name =>
      match b.names.find? (·.1 == name) with
      | none => (b.finish (some .unknownAnchor), none)
      | some (_, number) => take rest fault ({ b with size := b.size + 1 }.attach (.alias number))
    | .scalar properties text style =>
      let (anchor, b) := b.giveNumber properties.anchor
      let node := Node.scalar properties.tag text style
      take rest fault (({ b with size := b.size + 1 }.note anchor b.size node).attach node)
    | .sequenceStart properties =>
      let (anchor, b) := b.giveNumber properties.anchor
      take rest fault { b with
        size := b.size + 1, frames := .sequence properties.tag anchor b.size [] :: b.frames }
    | .mappingStart properties =>
      let (anchor, b) := b.giveNumber properties.anchor
      take rest fault { b with
        size := b.size + 1, frames := .mapping properties.tag anchor b.size [] none :: b.frames }
    | .sequenceEnd | .mappingEnd => take rest fault ({ b with size := b.size + 1 }.close true)

end Builder

/-- **The first document of a text**, and whether anything but the end of the text follows it: a
further document or a fault. -/
def Document.ofText (text : List Char) : Document × Bool :=
  let (events, fault) := Event.ofText text
  match Builder.take events fault {} with
  | (document, none) => (document, false)
  | (document, some rest) => (document, !(rest == [.streamEnd] || rest.isEmpty && fault.isNone))

/-- A document is known by its events, when nothing but the end of the text follows it. -/
theorem Document.ofText_of_events {text : List Char} {events : List Event} {document : Document}
    (hevents : Event.ofText text = (events, none))
    (htake : Builder.take events none {} = (document, some [.streamEnd])) :
    Document.ofText text = (document, false) := by
  rw [ofText, hevents]
  dsimp only
  rw [htake]
  rfl

end Rulebook.Yaml
