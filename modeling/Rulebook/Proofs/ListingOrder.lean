import Rulebook.Proofs.Bookkeeping
import Rulebook.Proofs.Reordering
import Rulebook.Proofs.SameContent

/-!
# The order in which directories list their entries does not matter

The order in which an operating system lists a directory is its own affair. A load must not depend
on it, although order decides a lot here: which of several rules with one name is kept, and which of
several faulty error keys is the one that is reported.

In two trees that differ only in that order, directories at the same position are one another's
reordering (`Directory.Reordered`). These have the same texts (`Directory.Reordered.text?`) and hold
directories that correspond one by one (`Directory.Reordered.subdirectories`), since what is listed
is sorted. So they have the same files, and the contents are the same to a load
(`Snapshot.sameContent_of_reordered`).
-/

namespace Rulebook

open Files (Node World)

namespace Directory

/-- **A directory and the one at the same position in a reordered tree.** -/
structure Reordered (directory reordered : Directory) : Prop where
  /-- They are at the same position. -/
  position : directory.toPosition = reordered.toPosition
  /-- They were come to by the same path. -/
  path : directory.path = reordered.path
  /-- What they hold differs only in its order. -/
  node : directory.node.Reordered reordered.node
  /-- What they hold repeats no name. -/
  distinct : directory.node.Distinct

namespace Reordered

variable {directory reordered : Directory}

theorem name (h : directory.Reordered reordered) : directory.name = reordered.name := by
  rw [Directory.name, h.position, Directory.name]

theorem symm (h : directory.Reordered reordered) : reordered.Reordered directory :=
  ⟨h.position.symm, h.path.symm, h.node.symm, h.node.distinct h.distinct⟩

theorem pathOf (h : directory.Reordered reordered) (name : String) :
    directory.pathOf name = reordered.pathOf name := by
  rw [Directory.pathOf, h.path, Directory.pathOf]

/-- What the one directory holds, the other one holds as well. -/
theorem exists_subdirectory (h : directory.Reordered reordered) {held : Directory}
    (hheld : held ∈ directory.subdirectories) :
    ∃ other ∈ reordered.subdirectories, held.Reordered other := by
  obtain ⟨name, entries, hmem, rfl⟩ := mem_subdirectories.1 hheld
  have hfound : Option.Rel Node.Reordered (Node.find? name directory.entries)
      (Node.find? name reordered.entries) := h.node.child? h.distinct name
  rw [(Node.find?_eq_some_iff h.distinct.names).2 hmem] at hfound
  generalize hother : Node.find? name reordered.entries = found at hfound
  cases hfound with
  | @some _ node hnode =>
    obtain ⟨others, rfl⟩ : ∃ others, node = .directory others := by
      rcases hnode.eq_or_directories with rfl | ⟨_, others, -, rfl⟩
      · exact ⟨entries, rfl⟩
      · exact ⟨others, rfl⟩
    refine ⟨⟨⟨name :: reordered.place, reordered.links⟩, reordered.pathOf name, others⟩,
      mem_subdirectories.2 ⟨name, others, Node.mem_of_find? hother, rfl⟩, ?_, h.pathOf name, hnode,
      distinct_of_mem_subdirectories h.distinct hheld⟩
    rw [h.position]

/-- **What the two directories hold corresponds one by one**, in the order of the names. -/
theorem subdirectories (h : directory.Reordered reordered) :
    List.Forall₂ Reordered directory.subdirectories reordered.subdirectories := by
  refine forall₂_of_ascending (fun _ _ h => h.name) (subdirectories_ascending h.distinct)
    (subdirectories_ascending h.symm.distinct) (fun held => h.exists_subdirectory)
    fun held hheld => ?_
  obtain ⟨other, hother, hsame⟩ := h.symm.exists_subdirectory hheld
  exact ⟨other, hother, hsame.symm⟩

section Content

variable {root other : Node} (hroot : root.Reordered other) (hdistinct : root.Distinct)
include hroot hdistinct

/-- What a name in the two directories leads to differs only in its order. -/
theorem resolve? (h : directory.Reordered reordered) (name : String) :
    Option.Rel Node.Reordered (directory.resolve? root name) (reordered.resolve? other name) := by
  rw [Directory.resolve?, Directory.resolve?, h.pathOf, h.position,
    World.follow_eq hroot hdistinct]
  split
  · cases World.follow other reordered.toPosition [name] with
    | error fault => exact .none
    | ok position => exact hroot.at? hdistinct _
  · exact .none

/-- **The two directories have the same texts**, of which the malformed stretches are replaced. -/
theorem text? (h : directory.Reordered reordered) (name : String) :
    directory.text? root name = reordered.text? other name := by
  have hfound := h.resolve? hroot hdistinct name
  rw [Directory.text?, Directory.text?]
  generalize directory.resolve? root name = found at hfound ⊢
  generalize reordered.resolve? other name = found' at hfound ⊢
  cases hfound with
  | none => rfl
  | some hsame => rcases hsame.eq_or_directories with rfl | ⟨_, _, rfl, rfl⟩ <;> rfl

/-- **The two directories have the same files.** -/
theorem sameFiles (h : directory.Reordered reordered) :
    directory.SameFiles root other reordered := by
  induction directory using Directory.induction generalizing reordered with
  | step directory ih =>
    have hheld := (List.forall₂_and_left (p := (· ∈ directory.subdirectories)) _ _).2
      ⟨fun held hmem => hmem, h.subdirectories⟩
    exact .intro h.name h.path (fun file _ => h.text? hroot hdistinct file)
      (hheld.imp fun held mate ⟨hmem, hmate⟩ => ih held hmem hmate)

end Content

end Reordered

end Directory

/-! ## Loading -/

namespace Snapshot

variable {world other : World}

/-- A path that leads to no directory fails in the same way, and a directory that is opened differs
only in its order. -/
theorem openedAlike_of_reordered (h : world.Reordered other) (path : String) :
    OpenedAlike world.root other.root (openDirectory world path) (openDirectory other path) := by
  rw [openDirectory, openDirectory, h.reach]
  cases other.reach path with
  | error fault => exact .failed _
  | ok position =>
    have hnode := h.node? position
    dsimp only
    generalize hhere : position.node? world.root = here at hnode ⊢
    generalize position.node? other.root = there at hnode ⊢
    -- a directory that is opened has the same files as the reordered one
    have hopened {entries others : List (String × Node)}
        (hsame : (Node.directory entries).Reordered (.directory others))
        (hdistinct : (Node.directory entries).Distinct) : OpenedAlike world.root other.root
          (.ok ⟨position, path, entries⟩) (.ok ⟨position, path, others⟩) :=
      .opened (Directory.Reordered.sameFiles h.root world.distinct ⟨rfl, rfl, hsame, hdistinct⟩)
    cases hnode with
    | none => exact .failed _
    | @some node next hsame =>
      have hdistinct : node.Distinct := world.distinct.of_at? hhere
      rcases hsame.eq_or_directories with rfl | ⟨entries, others, rfl, rfl⟩
      · cases node with
        | file bytes => exact .failed _
        | link target => exact .failed _
        | directory entries => exact hopened hsame hdistinct
      · exact hopened hsame hdistinct

/-- **Contents that differ only in the order are the same to a load.** -/
theorem sameContent_of_reordered (h : world.Reordered other) (path : String) :
    SameContent world other path where
  labels := h.readText _
  category category := openedAlike_of_reordered h (Path.join path category.name)

/-- A content in which two rules of one category have the same name. -/
def collidingContent : World := .ofPlaces [] [
  (["config.yaml"], .file []),
  (["external", "first", "rule", "plugin.yaml"], .file []),
  (["external", "second", "rule", "plugin.yaml"], .file []),
  (["internal"], .directory [])]

/-- The same content, listed the other way round. -/
def swappedContent : World := .ofPlaces [] [
  (["internal"], .directory []),
  (["external", "second", "rule", "plugin.yaml"], .file []),
  (["external", "first", "rule", "plugin.yaml"], .file []),
  (["config.yaml"], .file [])]

/-- A group of that content. -/
def groupNode : Node := .directory [("rule", .directory [("plugin.yaml", .file [])])]

theorem collidingContent_root : collidingContent.root = .directory [("config.yaml", .file []),
    ("external", .directory [("first", groupNode), ("second", groupNode)]),
    ("internal", .directory [])] := rfl

theorem swappedContent_root : swappedContent.root = .directory [("internal", .directory []),
    ("external", .directory [("second", groupNode), ("first", groupNode)]),
    ("config.yaml", .file [])] := rfl

theorem collidingContent_reordered : collidingContent.Reordered swappedContent where
  root := by
    rw [collidingContent_root, swappedContent_root]
    have hgroups : (Node.directory [("first", groupNode), ("second", groupNode)]).Reordered
        (.directory [("second", groupNode), ("first", groupNode)]) := .perm (.swap ..)
    exact .trans (.inside [("config.yaml", .file [])] "external" [("internal", .directory [])]
      hgroups) (.perm (List.reverse_perm _).symm)
  start := rfl

/-- **The result of a load does not depend on the order in which directories list their entries.**
In two worlds that differ only in that order, whatever the depth, a load fails in the same way or
has the same rules and the same statuses with the same errors. -/
theorem load_eq_of_reordered (h : world.Reordered other) (path : String) :
    load world path = load other path :=
  load_of_sameContent (sameContent_of_reordered h path)

/-- That content is loaded with the same result either way round. -/
theorem load_eq_of_reordered_collidingContent : ∃ snapshot,
    load collidingContent "." = .ok snapshot ∧ load swappedContent "." = .ok snapshot := by
  have h := load_here collidingContent_root rfl rfl decode?_nil rfl (by decide +kernel) rfl rfl
  exact ⟨_, h, load_eq_of_reordered collidingContent_reordered "." ▸ h⟩

end Snapshot

end Rulebook
