import Rulebook.Proofs.Tree
import Mathlib.Data.List.Forall2

/-!
# Trees whose directories list in another order

Nothing says in which order a directory lists what it holds. Two trees that differ in nothing else
are **reordered**: `Node.Reordered` takes any order of the entries of a directory for any other, and
does so inside the entries as well, at any depth.

Whatever is asked by name has then the same answer. A place below the one node leads to a node that
is reordered below the other (`Node.Reordered.at?`), a path that is followed ends at the same place
or fails in the same way (`World.follow_eq`), and a file that is read has the same bytes, since a
file has no order (`Node.Reordered.eq_or_directories`).
-/

namespace Rulebook.Files

/-- **Two trees that differ only in the order in which directories list their entries.** -/
inductive Node.Reordered : Node → Node → Prop where
  /-- Nothing needs to differ. -/
  | refl (node : Node) : node.Reordered node
  /-- The entries of a directory may come in any other order. -/
  | perm {entries others : List (String × Node)} (h : entries.Perm others) :
    (Node.directory entries).Reordered (.directory others)
  /-- An entry may be reordered inside. -/
  | inside (before : List (String × Node)) (name : String) {node other : Node}
    (after : List (String × Node)) (h : node.Reordered other) :
    (Node.directory (before ++ (name, node) :: after)).Reordered
      (.directory (before ++ (name, other) :: after))
  /-- Any number of such changes may follow each other. -/
  | trans {node middle other : Node} (h : node.Reordered middle) (h' : middle.Reordered other) :
    node.Reordered other

namespace Node

theorem Reordered.rel_refl (found : Option Node) : Option.Rel Reordered found found := by
  cases found with
  | none => exact .none
  | some node => exact .some (.refl node)

theorem Reordered.rel_trans {found middle other : Option Node}
    (h : Option.Rel Reordered found middle) (h' : Option.Rel Reordered middle other) :
    Option.Rel Reordered found other := by
  cases h with
  | none => exact h'
  | some h =>
    cases h' with
    | some h' => exact .some (h.trans h')

/-- What is found under a name is reordered when one of the entries is. -/
theorem find?_inside {name key : String} {node other : Node} (h : node.Reordered other)
    (before after : List (String × Node)) :
    Option.Rel Reordered (find? key (before ++ (name, node) :: after))
      (find? key (before ++ (name, other) :: after)) := by
  induction before with
  | nil =>
    rw [List.nil_append, List.nil_append, find?, find?]
    split
    · exact .some h
    · exact Reordered.rel_refl _
  | cons entry before ih =>
    rw [List.cons_append, List.cons_append, find?, find?]
    split
    · exact Reordered.rel_refl _
    · exact ih

namespace Reordered

variable {node other : Node}

theorem symm (h : node.Reordered other) : other.Reordered node := by
  induction h with
  | refl node => exact .refl node
  | perm h => exact .perm h.symm
  | inside before name after h ih => exact .inside before name after ih
  | trans h h' ih ih' => exact ih'.trans ih

/-- **Only directories have an order**: nothing else is changed. -/
theorem eq_or_directories (h : node.Reordered other) : node = other
    ∨ ∃ entries others, node = .directory entries ∧ other = .directory others := by
  induction h with
  | refl node => exact .inl rfl
  | perm h => exact .inr ⟨_, _, rfl, rfl⟩
  | inside before name after h ih => exact .inr ⟨_, _, rfl, rfl⟩
  | trans h h' ih ih' =>
    rcases ih with rfl | ⟨entries, others, rfl, rfl⟩
    · exact ih'
    · rcases ih' with rfl | ⟨_, others, -, rfl⟩
      · exact .inr ⟨_, _, rfl, rfl⟩
      · exact .inr ⟨_, _, rfl, rfl⟩

/-- No name comes to be listed twice. -/
theorem distinct (h : node.Reordered other) (hd : node.Distinct) : other.Distinct := by
  induction h with
  | refl node => exact hd
  | perm h =>
    cases hd with
    | directory _ names nodes =>
      exact .directory _ ((h.map _).nodup names) fun entry hentry =>
        nodes entry (h.mem_iff.2 hentry)
  | @inside before name node other after h ih =>
    cases hd with
    | directory _ names nodes =>
      refine .directory _ ?_ fun entry hentry => ?_
      · rw [List.map_append, List.map_cons] at names ⊢
        exact names
      · rw [List.mem_append, List.mem_cons] at hentry
        rcases hentry with hentry | rfl | hentry
        · exact nodes entry (List.mem_append_left _ hentry)
        · exact ih (nodes (name, node) (List.mem_append_right _ (List.mem_cons_self ..)))
        · exact nodes entry (List.mem_append_right _ (List.mem_cons_of_mem _ hentry))
  | trans h h' ih ih' => exact ih' (ih hd)

/-- **What a directory holds under a name is reordered** when the directory is. -/
theorem child? (h : node.Reordered other) (hd : node.Distinct) (name : String) :
    Option.Rel Reordered (node.child? name) (other.child? name) := by
  induction h with
  | refl node => exact Reordered.rel_refl _
  | perm h =>
    rw [Node.child?, Node.child?, find?_perm h hd.names]
    exact Reordered.rel_refl _
  | inside before key after h ih => exact find?_inside h before after
  | trans h h' ih ih' =>
    -- the tree in the middle lists no name twice either
    exact rel_trans (ih hd) (ih' (h.distinct hd))

/-- **What lies at a place below a node is reordered** when the node is. -/
theorem at? (h : node.Reordered other) (hd : node.Distinct) (names : List String) :
    Option.Rel Reordered (node.at? names) (other.at? names) := by
  induction names generalizing node other with
  | nil =>
    rw [Node.at?, Node.at?]
    exact .some h
  | cons name rest ih =>
    have hchild := h.child? hd name
    rw [Node.at?, Node.at?]
    generalize hfind : node.child? name = found at hchild ⊢
    generalize other.child? name = otherFound at hchild ⊢
    cases hchild with
    | none => exact .none
    | some hchild => exact ih hchild (hd.of_child? hfind)

end Reordered

end Node

/-! ## Paths -/

namespace World

section Follow

variable {root other : Node}

/-- **A component does the same in a reordered tree**, also when it is a link or leads nowhere. -/
theorem step_eq (h : root.Reordered other) (hd : root.Distinct) (position : Position)
    (name : String) : step root position name = step other position name := by
  have hnode : Option.Rel Node.Reordered (position.node? root) (position.node? other) :=
    h.at? hd _
  rw [step, step]
  generalize hhere : position.node? root = here at hnode ⊢
  generalize position.node? other = there at hnode ⊢
  cases hnode with
  | none => rfl
  | some hsame =>
    rcases hsame.eq_or_directories with rfl | ⟨entries, others, rfl, rfl⟩
    · rfl
    · have hfind : Option.Rel Node.Reordered (Node.find? name entries) (Node.find? name others) :=
        hsame.child? (hd.of_at? hhere) name
      simp only [stepInto]
      generalize Node.find? name entries = found at hfind ⊢
      generalize Node.find? name others = otherFound at hfind ⊢
      cases hfind with
      | none => rfl
      | some hsame =>
        -- only a link matters, and a link stays what it is
        rcases hsame.eq_or_directories with rfl | ⟨_, _, rfl, rfl⟩ <;> rfl

/-- **A path that is followed in a reordered tree ends at the same place**, or fails in the same
way. -/
theorem follow_eq (h : root.Reordered other) (hd : root.Distinct) (position : Position)
    (steps : List String) : follow root position steps = follow other position steps :=
  follow_congr (step_eq h hd) position steps

end Follow

/-- **Two worlds that differ only in the order in which directories list their entries.** -/
structure Reordered (world other : World) : Prop where
  /-- The trees differ in nothing else. -/
  root : world.root.Reordered other.root
  /-- Both start from the same place. -/
  start : world.start = other.start

namespace Reordered

variable {world other : World}

theorem reach (h : world.Reordered other) (path : String) :
    world.reach path = other.reach path := by
  rw [World.reach, World.reach, h.start]
  simp only [follow_eq h.root world.distinct]

/-- **What stands at a position is reordered** when the world is. -/
theorem node? (h : world.Reordered other) (position : Position) :
    Option.Rel Node.Reordered (position.node? world.root) (position.node? other.root) :=
  h.root.at? world.distinct _

/-- **A file that is read has the same bytes**, and one that cannot be read cannot be read for the
same reason. -/
theorem readBytes (h : world.Reordered other) (path : String) :
    world.readBytes path = other.readBytes path := by
  rw [World.readBytes, World.readBytes, World.node, World.node, h.reach]
  cases other.reach path with
  | error fault => rfl
  | ok position =>
    have hnode := h.node? position
    simp only [bind, Except.bind]
    generalize position.node? world.root = here at hnode ⊢
    generalize position.node? other.root = there at hnode ⊢
    cases hnode with
    | none => rfl
    | some hsame =>
      rcases hsame.eq_or_directories with rfl | ⟨_, _, rfl, rfl⟩ <;> rfl

theorem readText (h : world.Reordered other) (path : String) :
    world.readText path = other.readText path := by
  rw [World.readText, World.readText, h.readBytes]

end Reordered

end World

end Rulebook.Files
