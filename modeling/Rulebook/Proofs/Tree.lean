import Rulebook.Files.Tree
import Mathlib.Data.List.Forall2
import Mathlib.Data.List.Perm.Basic

/-!
# Looking into a tree of files

What a directory of a tree holds under a name is read off its entries, whatever their order, as long
as no name is listed twice (`Node.find?_eq_some_iff`). Sorting the entries is then a way to go
through them that does not depend on the order either: `Node.listing_ascending` says that the names
strictly ascend.
-/

namespace Rulebook

/-- In lists that correspond one by one, whatever is in the first has its counterpart. -/
theorem exists_right_of_forall₂ {α β : Type} {r : α → β → Prop} {list : List α} {other : List β}
    (h : List.Forall₂ r list other) {a : α} (ha : a ∈ list) : ∃ b ∈ other, r a b := by
  induction h with
  | nil => cases ha
  | cons hab _ ih =>
    rcases List.mem_cons.1 ha with rfl | ha
    · exact ⟨_, List.mem_cons_self .., hab⟩
    · obtain ⟨b, hb, hrel⟩ := ih ha
      exact ⟨b, List.mem_cons_of_mem _ hb, hrel⟩

/-- So has whatever is in the second. -/
theorem exists_left_of_forall₂ {α β : Type} {r : α → β → Prop} {list : List α} {other : List β}
    (h : List.Forall₂ r list other) {b : β} (hb : b ∈ other) : ∃ a ∈ list, r a b :=
  exists_right_of_forall₂ (r := flip r) (List.Forall₂.flip h) hb

/-- **Two ascending lists correspond one by one** when everything in the one has its counterpart,
under the same name, in the other. -/
theorem forall₂_of_ascending {α β : Type} {r : α → β → Prop} {key : α → String}
    {key' : β → String} (hkey : ∀ a b, r a b → key a = key' b) {list : List α} {other : List β}
    (h : list.Pairwise fun a b => key a < key b)
    (h' : other.Pairwise fun a b => key' a < key' b)
    (hleft : ∀ a ∈ list, ∃ b ∈ other, r a b) (hright : ∀ b ∈ other, ∃ a ∈ list, r a b) :
    List.Forall₂ r list other := by
  induction list generalizing other with
  | nil =>
    cases other with
    | nil => exact .nil
    | cons b _ =>
      obtain ⟨a, ha, -⟩ := hright b (List.mem_cons_self ..)
      cases ha
  | cons a rest ih =>
    obtain ⟨hfirst, hrest⟩ := List.pairwise_cons.1 h
    cases other with
    | nil =>
      obtain ⟨b, hb, -⟩ := hleft a (List.mem_cons_self ..)
      cases hb
    | cons b rest' =>
      obtain ⟨hfirst', hrest'⟩ := List.pairwise_cons.1 h'
      -- each of the two first entries is the counterpart of the other
      have hab : r a b := by
        obtain ⟨b', hb', hab'⟩ := hleft a (List.mem_cons_self ..)
        rcases List.mem_cons.1 hb' with rfl | hb'
        · exact hab'
        · obtain ⟨a', ha', hab⟩ := hright b (List.mem_cons_self ..)
          rcases List.mem_cons.1 ha' with rfl | ha'
          · exact hab
          · have hlt := hfirst a' ha'
            have hlt' := hfirst' b' hb'
            rw [← hkey a b' hab', ← hkey a' b hab] at hlt'
            exact absurd (String.lt_trans hlt hlt') (String.lt_irrefl _)
      refine .cons hab (ih hrest hrest' (fun a' ha' => ?_) fun b' hb' => ?_)
      · obtain ⟨b', hb', hab'⟩ := hleft a' (List.mem_cons_of_mem _ ha')
        rcases List.mem_cons.1 hb' with rfl | hb'
        · have hlt := hfirst a' ha'
          rw [hkey a b' hab, hkey a' b' hab'] at hlt
          exact absurd hlt (String.lt_irrefl _)
        · exact ⟨b', hb', hab'⟩
      · obtain ⟨a', ha', hab'⟩ := hright b' (List.mem_cons_of_mem _ hb')
        rcases List.mem_cons.1 ha' with rfl | ha'
        · have hlt := hfirst' b' hb'
          rw [← hkey a' b hab, ← hkey a' b' hab'] at hlt
          exact absurd hlt (String.lt_irrefl _)
        · exact ⟨a', ha', hab'⟩

end Rulebook

namespace Rulebook.Files.Node

/-! ## Entries -/

/-- **With distinct names, a directory holds a node exactly when it lists it.** -/
theorem find?_eq_some_iff {entries : List (String × Node)} (h : (entries.map (·.1)).Nodup)
    {name : String} {node : Node} : find? name entries = some node ↔ (name, node) ∈ entries := by
  refine ⟨mem_of_find?, fun hmem => ?_⟩
  induction entries with
  | nil => cases hmem
  | cons entry rest ih =>
    rw [List.map_cons, List.nodup_cons] at h
    rw [find?]
    rcases List.mem_cons.1 hmem with rfl | hmem
    · rw [if_pos rfl]
    · have hne : entry.1 ≠ name := fun hname => h.1 (hname ▸ List.mem_map_of_mem hmem)
      rw [if_neg hne]
      exact ih h.2 hmem

/-- The order of the entries does not matter to what is found under a name. -/
theorem find?_perm {entries others : List (String × Node)} (h : entries.Perm others)
    (names : (entries.map (·.1)).Nodup) (name : String) :
    find? name entries = find? name others := by
  refine Option.ext fun node => ?_
  rw [find?_eq_some_iff names, find?_eq_some_iff ((h.map _).nodup names)]
  exact h.mem_iff

theorem listing_perm (entries : List (String × Node)) : (listing entries).Perm entries :=
  List.mergeSort_perm _ _

@[simp] theorem mem_listing {entries : List (String × Node)} {entry : String × Node} :
    entry ∈ listing entries ↔ entry ∈ entries :=
  List.mem_mergeSort

/-- **The names of a sorted listing strictly ascend.** -/
theorem listing_ascending {entries : List (String × Node)} (h : (entries.map (·.1)).Nodup) :
    (listing entries).Pairwise fun entry other => entry.1 < other.1 := by
  have hsorted : (listing entries).Pairwise fun entry other => byName entry other = true := by
    refine List.pairwise_mergeSort (fun a b c => ?_) (fun a b => ?_) entries
    · simpa [byName] using String.le_trans
    · simpa [byName] using String.le_total a.1 b.1
  have hnames : (listing entries).Pairwise fun entry other => entry.1 ≠ other.1 :=
    List.pairwise_map.1 (((listing_perm entries).map _).symm.nodup h)
  refine (hsorted.and hnames).imp fun ⟨hle, hne⟩ => ?_
  exact Std.lt_of_le_of_ne (of_decide_eq_true hle) hne

/-! ## Places -/

/-- The node at a place behind another is found from there. -/
theorem at?_append (node : Node) (names more : List String) :
    node.at? (names ++ more) = (node.at? names).bind (·.at? more) := by
  induction names generalizing node with
  | nil => rw [List.nil_append, at?, Option.bind_some]
  | cons name rest ih =>
    rw [List.cons_append, at?, at?]
    cases node.child? name with
    | none => rfl
    | some child => exact ih child

/-- The node at a place in a directory is below the node under the first name. -/
theorem at?_cons {entries : List (String × Node)} (name : String) (rest : List String) :
    (directory entries).at? (name :: rest) = (find? name entries).bind (·.at? rest) := by
  rw [at?, child?]
  cases find? name entries <;> rfl

namespace Distinct

theorem names {entries : List (String × Node)} (h : (Node.directory entries).Distinct) :
    (entries.map (·.1)).Nodup := by
  cases h with
  | directory _ names _ => exact names

theorem of_child? {node child : Node} (h : node.Distinct) {name : String}
    (hchild : node.child? name = some child) : child.Distinct := by
  cases node with
  | directory entries => exact h.of_find? hchild
  | file bytes => cases hchild
  | link target => cases hchild

/-- **What lies below a node lists no name twice either.** -/
theorem of_at? {node child : Node} (h : node.Distinct) {names : List String}
    (hat : node.at? names = some child) : child.Distinct := by
  induction names generalizing node with
  | nil => exact Option.some.inj hat ▸ h
  | cons name rest ih =>
    rw [at?] at hat
    split at hat
    · rename_i inner hchild
      exact ih (h.of_child? hchild) hat
    · cases hat

end Distinct

/-! ## Links -/

mutual

/-- **The places of the links** below a node. -/
def linkPlaces : Node → List (List String)
  | .file _ => []
  | .link _ => [[]]
  | .directory entries => linkPlacesAll entries

/-- The places of the links among entries and below them. -/
def linkPlacesAll : List (String × Node) → List (List String)
  | [] => []
  | (name, node) :: rest => node.linkPlaces.map (name :: ·) ++ linkPlacesAll rest

end

theorem cons_mem_linkPlacesAll {entries : List (String × Node)} {name : String} {node : Node}
    (h : (name, node) ∈ entries) {names : List String} (hnames : names ∈ node.linkPlaces) :
    name :: names ∈ linkPlacesAll entries := by
  induction entries with
  | nil => cases h
  | cons entry rest ih =>
    rw [linkPlacesAll, List.mem_append, List.mem_map]
    rcases List.mem_cons.1 h with rfl | h
    · exact .inl ⟨names, hnames, rfl⟩
    · exact .inr (ih h)

/-- Every link has its place. -/
theorem mem_linkPlaces {node : Node} {names : List String} {target : String}
    (h : node.at? names = some (.link target)) : names ∈ node.linkPlaces := by
  induction names generalizing node with
  | nil =>
    rw [at?, Option.some.injEq] at h
    rw [h, linkPlaces]
    exact List.mem_singleton_self _
  | cons name rest ih =>
    rw [at?] at h
    split at h
    · rename_i child hchild
      cases node with
      | directory entries => exact cons_mem_linkPlacesAll (mem_of_find? hchild) (ih h)
      | file bytes => cases hchild
      | link target => cases hchild
    · cases h

/-! ## How far a tree reaches -/

mutual

/-- **The number of bytes of the longest path below a node**, with a slash in front of each name. -/
def extent : Node → Nat
  | .file _ => 0
  | .link _ => 0
  | .directory entries => extentAll entries

/-- The number of bytes of the longest path to one of the entries or below one. -/
def extentAll : List (String × Node) → Nat
  | [] => 0
  | (name, node) :: rest => max (1 + name.utf8ByteSize + node.extent) (extentAll rest)

end

/-- The paths below a directory go on from the names that it lists. -/
theorem le_extentAll {entries : List (String × Node)} {name : String} {node : Node}
    (h : (name, node) ∈ entries) : 1 + name.utf8ByteSize + node.extent ≤ extentAll entries := by
  induction entries with
  | nil => cases h
  | cons entry rest ih =>
    rw [extentAll]
    rcases List.mem_cons.1 h with rfl | h
    · exact Nat.le_max_left _ _
    · exact Nat.le_trans (ih h) (Nat.le_max_right _ _)

end Rulebook.Files.Node

namespace Rulebook.Files

/-! ## Positions -/

section Step

variable {root : Node} {position : Position} {entries : List (String × Node)}

/-- What stands one name further is what the directory holds under the name. -/
theorem Position.node?_cons (h : position.node? root = some (.directory entries))
    (name : String) :
    Position.node? root ⟨name :: position.place, position.links⟩ = Node.find? name entries := by
  rw [node?] at h ⊢
  rw [List.reverse_cons, Node.at?_append, h, Option.bind_some, Node.at?_cons]
  cases Node.find? name entries <;> rfl

/-- A name of its own is looked up in the directory. -/
theorem World.step_eq_stepInto (h : position.node? root = some (.directory entries))
    {name : String} (hname : name ≠ "." ∧ name ≠ ".." ∧ name.utf8ByteSize ≤ maxName) :
    step root position name = stepInto entries position name := by
  obtain ⟨hdot, hup, hlength⟩ := hname
  rw [step, h]
  dsimp only
  rw [beq_false_of_ne hdot, beq_false_of_ne hup, if_neg Bool.false_ne_true,
    if_neg Bool.false_ne_true, if_neg (Nat.not_lt.2 hlength)]

/-- What a directory holds under a name is where the name leads, unless that is a link. -/
theorem World.stepInto_entry {name : String} {node : Node}
    (hfind : Node.find? name entries = some node) (hnode : ∀ target, node ≠ .link target) :
    stepInto entries position name = .ok (⟨name :: position.place, position.links⟩, []) := by
  rw [stepInto, hfind]
  cases node with
  | link target => exact absurd rfl (hnode target)
  | file bytes => rfl
  | directory held => rfl

end Step

/-- A path that leads somewhere is short enough to be followed. -/
theorem World.fits_of_reach {world : World} {path : String} {position : Position}
    (h : world.reach path = .ok position) : Path.fits path = true := by
  cases hfits : Path.fits path with
  | true => rfl
  | false =>
    rw [reach, hfits] at h
    split at h
    · cases h
    · split at h <;> cases h

/-- **Trees in which every component does the same are followed alike.** -/
theorem World.follow_congr {root other : Node}
    (h : ∀ position name, step root position name = step other position name)
    (position : Position) (steps : List String) :
    follow root position steps = follow other position steps := by
  fun_induction follow root position steps with
  | case1 position => exact (follow_nil other position).symm
  | case2 position name rest fault hstep =>
    rw [follow_cons, ← h, hstep]
    rfl
  | case3 position name rest after more hstep ih =>
    rw [follow_cons, ← h, hstep]
    exact ih

/-! ## In the root -/

namespace World

section InRoot

variable {world : World} {entries : List (String × Node)} {path name : String}
  (hroot : world.root = .directory entries) (hstart : world.start = [])
  (hpath : path.isEmpty = false ∧ path.toList.contains '\x00' = false
    ∧ Path.fits path = true ∧ Path.steps path = [name])
  (hname : name ≠ "." ∧ name ≠ ".." ∧ name.utf8ByteSize ≤ maxName)
include hroot hstart hpath hname

/-- A path of one name is followed from the root, when relative paths start there as well. -/
theorem reach_in_root : world.reach path = (stepInto entries ⟨[], maxLinks⟩ name >>=
    fun (after, more) => follow (.directory entries) after (more ++ [])) := by
  have hhere : Position.node? (.directory entries) ⟨[], maxLinks⟩ = some (.directory entries) := rfl
  obtain ⟨hempty, hnull, hfits, hsteps⟩ := hpath
  rw [reach, hempty, hnull, hfits, hsteps, hroot, hstart, ← step_eq_stepInto hhere hname,
    ← follow_cons]
  simp

/-- **What the root has under a name** is found there, unless it is a link. -/
theorem node_in_root {node : Node} (hfind : Node.find? name entries = some node)
    (hnode : ∀ target, node ≠ .link target) : world.node path = .ok node := by
  have hhere : Position.node? (.directory entries) ⟨[], maxLinks⟩ = some (.directory entries) := rfl
  have hreach : world.reach path = .ok ⟨[name], maxLinks⟩ := by
    rw [reach_in_root hroot hstart hpath hname, stepInto_entry hfind hnode]
    exact follow_nil _ _
  rw [World.node, hreach, hroot]
  dsimp only [bind, Except.bind]
  rw [Position.node?_cons hhere name, hfind]
  rfl

/-- Nothing is found where the root does not have the name. -/
theorem not_in_root (hfind : Node.find? name entries = none) :
    world.node path = .error .notFound ∧ world.isFile path = false := by
  have hnode : world.node path = .error .notFound := by
    rw [World.node, reach_in_root hroot hstart hpath hname, stepInto, hfind]
    rfl
  refine ⟨hnode, ?_⟩
  rw [isFile, hnode]

end InRoot

/-- **A file is read** where it is found, if its bytes are a text. -/
theorem readText_of_node {world : World} {path text : String} {bytes : List UInt8}
    (hnode : world.node path = .ok (.file bytes)) (htext : Text.decode? bytes = some text) :
    world.readText path = .ok text := by
  simp only [readText, readBytes, hnode, bind, Except.bind, pure, Except.pure, htext]

end World

end Rulebook.Files
