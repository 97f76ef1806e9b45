import Rulebook.Files.Tree

/-!
# Making a tree

A tree is made by putting one node after the other at its place. What is made so lists no name
twice in any directory (`Node.distinct_put`), whatever is put where.
-/

namespace Rulebook.Files

namespace Node

/-- The node without what it holds. -/
def bare : Node → Node
  | .directory _ => .directory []
  | node => node

theorem distinct_bare (node : Node) : node.bare.Distinct := by
  cases node with
  | file bytes => exact .file bytes
  | directory entries => exact .directory [] .nil (by simp)
  | link target => exact .link target

/-- Puts a node under a name, in the place of what is there. -/
def replace (name : String) (node : Node) (entries : List (String × Node)) :
    List (String × Node) :=
  entries.filter (·.1 != name) ++ [(name, node)]

theorem distinct_replace {name : String} {node : Node} {entries : List (String × Node)}
    (hnode : node.Distinct) (h : (Node.directory entries).Distinct) :
    (Node.directory (replace name node entries)).Distinct := by
  cases h with
  | directory _ names nodes =>
    refine .directory _ ?_ fun entry hentry => ?_
    · rw [replace, List.map_append, List.map_cons, List.map_nil, List.nodup_append]
      refine ⟨names.sublist (List.filter_sublist.map _), by simp, fun a ha b hb => ?_⟩
      obtain ⟨entry, hentry, rfl⟩ := List.mem_map.1 ha
      rw [List.mem_singleton.1 hb]
      simpa using (List.mem_filter.1 hentry).2
    · rcases List.mem_append.1 hentry with hentry | hentry
      · exact nodes entry (List.mem_filter.1 hentry).1
      · rw [List.mem_singleton.1 hentry]
        exact hnode

/-- **Puts a node at a place** in a directory, and makes the directories that lead there. What
stands in the way is replaced. A directory is put without what it holds, and one that is already
there keeps what it holds. -/
def put (node : Node) : List String → List (String × Node) → List (String × Node)
  | [], entries => entries
  | [name], entries =>
    match node, find? name entries with
    | .directory _, some (.directory _) => entries
    | _, _ => replace name node.bare entries
  | name :: rest, entries =>
    let inner := match find? name entries with
      | some (.directory inner) => inner
      | _ => []
    replace name (.directory (put node rest inner)) entries

/-- **Putting a node somewhere repeats no name.** -/
theorem distinct_put (node : Node) (place : List String) {entries : List (String × Node)}
    (h : (Node.directory entries).Distinct) :
    (Node.directory (node.put place entries)).Distinct := by
  induction place generalizing entries with
  | nil => exact h
  | cons name rest ih =>
    cases rest with
    | nil =>
      simp only [put]
      split
      · exact h
      · exact distinct_replace (distinct_bare _) h
    | cons next rest =>
      simp only [put]
      refine distinct_replace (ih ?_) h
      split
      · rename_i inner hfind
        exact h.of_find? hfind
      · exact .directory [] .nil (by simp)

end Node

/-- **The world with given nodes at given places**, which are counted from the root. -/
def World.ofPlaces (start : List String) (places : List (List String × Node)) : World where
  root := .directory (places.foldl (fun entries place => place.2.put place.1 entries)
    (Node.put (.directory []) start []))
  start
  distinct := by
    refine List.foldlRecOn places _ (motive := fun entries => (Node.directory entries).Distinct)
      (Node.distinct_put _ start (.directory [] .nil (by simp))) fun entries h place _ => ?_
    exact Node.distinct_put place.2 place.1 h

end Rulebook.Files
