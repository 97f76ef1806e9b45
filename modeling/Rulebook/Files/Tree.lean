import Rulebook.Error
import Rulebook.Files.Path
import Rulebook.Text.Utf8

/-!
# Files, directories and links

The service reads its content from a tree of files. A **node** of the tree is a file with its bytes,
a directory with its named nodes, or a symbolic link with the path it leads to. A directory lists
its nodes in any order, but no name twice (`Node.Distinct`); whoever goes through one sorts what it
lists by name (`Node.listing`).

A **world** is a tree with a directory in it to start from. Following a path in a world means
following its components one by one, through the links that are met on the way, of which there may
be so many and no more; `World.reach` gives the position where the path ends, and `World.node` what
stands there. Names and whole paths may have so many bytes and no more.
-/

namespace Rulebook.Files

/-- **A file, a directory or a link.** -/
inductive Node where
  /-- A file and its bytes. -/
  | file (bytes : List UInt8)
  /-- A directory and what it holds. -/
  | directory (entries : List (String × Node))
  /-- A link and the path it leads to. -/
  | link (target : String)
deriving Inhabited

namespace Node

/-- The node that a list of named nodes holds under a name. -/
def find? (name : String) : List (String × Node) → Option Node
  | [] => none
  | (key, node) :: rest => if key = name then some node else find? name rest

/-- The node that a directory holds under a name. -/
def child? (name : String) : Node → Option Node
  | .directory entries => find? name entries
  | _ => none

/-- Whether the node is a directory. -/
def isDirectory : Node → Bool
  | .directory _ => true
  | _ => false

/-- Whether the node is a file. -/
def isFile : Node → Bool
  | .file _ => true
  | _ => false

/-- Whether a named node stands before another in the order of the names. -/
def byName (entry other : String × Node) : Bool := entry.1 ≤ other.1

/-- **Named nodes in the order of their names.** -/
def listing (entries : List (String × Node)) : List (String × Node) := entries.mergeSort byName

/-- **No directory of the tree lists a name twice.** -/
inductive Distinct : Node → Prop where
  /-- A file lists nothing. -/
  | file (bytes : List UInt8) : Distinct (.file bytes)
  /-- A directory lists distinct names, and so does each of its nodes. -/
  | directory (entries : List (String × Node)) (names : (entries.map (·.1)).Nodup)
      (nodes : ∀ entry ∈ entries, entry.2.Distinct) : Distinct (.directory entries)
  /-- A link lists nothing. -/
  | link (target : String) : Distinct (.link target)

/-- The node that a name leads to is among those that are listed. -/
theorem mem_of_find? {name : String} {node : Node} {entries : List (String × Node)}
    (h : find? name entries = some node) : (name, node) ∈ entries := by
  induction entries with
  | nil => cases h
  | cons entry rest ih =>
    rw [find?] at h
    split at h
    · rename_i hname
      obtain rfl := Option.some.inj h
      exact hname ▸ List.mem_cons_self ..
    · exact List.mem_cons_of_mem _ (ih h)

/-- What a directory holds lists no name twice either. -/
theorem Distinct.of_find? {entries : List (String × Node)} (h : (Node.directory entries).Distinct)
    {name : String} {node : Node} (hfind : find? name entries = some node) : node.Distinct := by
  cases h with
  | directory _ _ nodes => exact nodes (name, node) (mem_of_find? hfind)

/-- The node at a place below a node. -/
def at? : Node → List String → Option Node
  | node, [] => some node
  | node, name :: rest =>
    match node.child? name with
    | some child => child.at? rest
    | none => none

end Node

/-- **A place that a path has led to.** -/
structure Position where
  /-- The names that lead to the place from the root on, last name first. -/
  place : List String
  /-- How many links may still be followed from there. -/
  links : Nat

/-- What stands at a position. -/
def Position.node? (root : Node) (position : Position) : Option Node :=
  root.at? position.place.reverse

/-- **A tree of files and a directory to start from.** -/
structure World where
  /-- The tree, from the root on. -/
  root : Node
  /-- The names that lead from the root to the directory that relative paths start from. -/
  start : List String
  /-- No directory lists a name twice. -/
  distinct : root.Distinct

namespace World

/-- The path of the directory that relative paths start from. -/
def startPath (world : World) : String := "/" ++ "/".intercalate world.start

/-- How many links may be followed on one path. -/
def maxLinks : Nat := 40

/-- The greatest number of bytes of a name. -/
def maxName : Nat := 255

/-- Where a name leads in a directory, and the components that a link puts in its place. A link
costs one of those that may still be followed. -/
def stepInto (entries : List (String × Node)) (position : Position) (name : String) :
    Except IoFault (Position × List String) :=
  match Node.find? name entries with
  | none => throw .notFound
  | some (.link target) =>
    match position.links with
    -- what the link leads to is not looked at here: it is followed like any path
    | 0 => throw .tooManyLinks
    | links + 1 =>
      pure (⟨if Path.isAbsolute target then [] else position.place, links⟩, Path.steps target)
  | some _ => pure (⟨name :: position.place, position.links⟩, [])

/-- **What one component does at a position**: where it leads, and the components that have to be
followed from there before any others. -/
def step (root : Node) (position : Position) (name : String) :
    Except IoFault (Position × List String) :=
  match position.node? root with
  | some (.directory entries) =>
    if name == "." then pure (position, [])
    else if name == ".." then pure (⟨position.place.tail, position.links⟩, [])
    else if maxName < name.utf8ByteSize then throw .nameTooLong
    else stepInto entries position name
  | _ => throw .notDirectory

/-- A name costs a link or adds nothing to what is to be followed. -/
theorem stepInto_progress {entries : List (String × Node)} {position after : Position}
    {name : String} {more : List String} (h : stepInto entries position name = .ok (after, more)) :
    after.links < position.links ∨ after.links = position.links ∧ more = [] := by
  rw [stepInto] at h
  split at h
  · cases h
  · split at h
    · cases h
    · rename_i hlinks
      cases h
      exact .inl (hlinks ▸ Nat.lt_succ_self _)
  · cases h
    exact .inr ⟨rfl, rfl⟩

/-- A component costs a link or adds nothing to what is to be followed. -/
theorem step_progress {root : Node} {position after : Position} {name : String}
    {more : List String} (h : step root position name = .ok (after, more)) :
    after.links < position.links ∨ after.links = position.links ∧ more = [] := by
  rw [step] at h
  split at h
  · split at h
    · cases h
      exact .inr ⟨rfl, rfl⟩
    · split at h
      · cases h
        exact .inr ⟨rfl, rfl⟩
      · split at h
        · cases h
        · exact stepInto_progress h
  · cases h

/-- **Follows components from a position**, the place of which leads through real directories
only. -/
def follow (root : Node) (position : Position) : List String → Except IoFault Position
  | [] => pure position
  | name :: rest =>
    match _h : step root position name with
    | .error fault => throw fault
    | .ok (after, more) => follow root after (more ++ rest)
termination_by steps => (position.links, steps.length)
decreasing_by
  rcases step_progress _h with hlinks | ⟨hlinks, rfl⟩
  · exact .left _ _ hlinks
  · rw [hlinks]
    exact .right _ (Nat.lt_succ_self _)

theorem follow_nil (root : Node) (position : Position) :
    follow root position [] = .ok position := by
  rw [follow]
  rfl

/-- Following components is taking one and then following the others from where it leads. -/
theorem follow_cons (root : Node) (position : Position) (name : String) (rest : List String) :
    follow root position (name :: rest)
      = (step root position name >>= fun (after, more) => follow root after (more ++ rest)) := by
  rw [follow]
  cases step root position name <;> rfl

/-- **Where a path ends.** -/
def reach (world : World) (path : String) : Except IoFault Position :=
  if path.isEmpty then throw .notFound
  else if path.toList.contains '\x00' then throw .nullInName
  else if !Path.fits path then throw .nameTooLong
  else
    let place := if Path.isAbsolute path then [] else world.start.reverse
    follow world.root ⟨place, maxLinks⟩ (Path.steps path)

/-- **What a path leads to.** -/
def node (world : World) (path : String) : Except IoFault Node := do
  let position ← world.reach path
  match position.node? world.root with
  | some node => pure node
  | none => throw .notFound

/-- The bytes of the file that a path leads to. -/
def readBytes (world : World) (path : String) : Except IoFault (List UInt8) := do
  match ← world.node path with
  | .file bytes => pure bytes
  | _ => throw .isDirectory

/-- The text of the file that a path leads to, which must be well-formed. -/
def readText (world : World) (path : String) : Except IoFault String := do
  match Text.decode? (← world.readBytes path) with
  | some text => pure text
  | none => throw .invalidText

/-- Whether a path leads to a file. -/
def isFile (world : World) (path : String) : Bool :=
  match world.node path with
  | .ok (.file _) => true
  | _ => false

/-- Whether a path leads to a directory. -/
def isDirectory (world : World) (path : String) : Bool :=
  match world.node path with
  | .ok (.directory _) => true
  | _ => false

end World

end Rulebook.Files
