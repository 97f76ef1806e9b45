import Rulebook.Proofs.Bookkeeping
import Rulebook.Proofs.Replacement

/-!
# The same directory in two trees

Two trees that differ only at one place are walked through side by side. Outside the place a
directory of the one has its **counterpart** in the other, at the same position, and what the two
hold corresponds one by one (`Directory.Counterpart.subdirectories`). So do the outermost
directories with a property that are found below them (`Directory.Counterpart.outermostBelow`),
apart from one that may lie at the place itself.

That presupposes that a directory and its counterpart have the property together, and that nothing
is found strictly inside the place. Whether that is so depends on what was replaced.
-/

namespace Rulebook

open Files (Node Position World)

/-- Lists that correspond one by one are the same to whoever sees no difference. -/
theorem filterMap_eq_of_forall₂ {α β γ : Type} {r : α → β → Prop} {list : List α} {other : List β}
    (h : List.Forall₂ r list other) {f : α → Option γ} {g : β → Option γ}
    (hfg : ∀ a b, r a b → f a = g b) : list.filterMap f = other.filterMap g := by
  induction h with
  | nil => rfl
  | cons hab _ ih => rw [List.filterMap_cons, List.filterMap_cons, hfg _ _ hab, ih]

/-- Lists that correspond one by one do so member by member. -/
theorem forall₂_mem {α β : Type} {r : α → β → Prop} {list : List α} {other : List β}
    (h : List.Forall₂ r list other) :
    List.Forall₂ (fun a b => (a ∈ list ∧ b ∈ other) ∧ r a b) list other := by
  induction h with
  | nil => exact .nil
  | cons hab _ ih =>
    refine .cons ⟨⟨List.mem_cons_self .., List.mem_cons_self ..⟩, hab⟩ (ih.imp fun a b h => ?_)
    exact ⟨⟨List.mem_cons_of_mem _ h.1.1, List.mem_cons_of_mem _ h.1.2⟩, h.2⟩

/-- What is not kept may as well be left out before. -/
theorem filterMap_filter_of_none {α β : Type} {p : α → Bool} {f : α → Option β} (list : List α)
    (hf : ∀ a, p a = false → f a = none) : (list.filter p).filterMap f = list.filterMap f := by
  rw [List.filterMap_filter]
  refine List.filterMap_congr fun a _ => ?_
  cases hp : p a with
  | true => rfl
  | false => exact (hf a hp).symm

namespace Directory

/-- What lies below a directory of the tree stands in the tree. -/
theorem Below.node? {root : Node} {inner outer : Directory} (hinner : inner.Below outer)
    (h : outer.toPosition.node? root = some outer.node) :
    inner.toPosition.node? root = some inner.node := by
  obtain ⟨names, entries, -, hat, rfl⟩ := hinner
  rw [Position.node?, List.reverse_append, List.reverse_reverse, Node.at?_append]
  refine (congrArg (·.bind (·.at? names)) h).trans ?_
  exact hat

/-- A rule directory that is found below a directory of the tree stands in the tree. -/
theorem node?_of_mem_rules {root : Node} {directory found : Directory}
    (h : directory.toPosition.node? root = some directory.node) (hdistinct : root.Distinct)
    (hfound : found ∈ directory.rules root) : found.toPosition.node? root = some found.node :=
  ((mem_rules (hdistinct.of_at? h)).1 hfound).1.node? h

variable {place : List String} {root other : Node} {directory mate : Directory}

/-- **A directory and the one at the same position in another tree.** -/
structure Counterpart (root other : Node) (directory mate : Directory) : Prop where
  /-- They are at the same position. -/
  position : directory.toPosition = mate.toPosition
  /-- They were come to by the same path. -/
  path : directory.path = mate.path
  /-- The one stands there in its tree. -/
  here : directory.toPosition.node? root = some directory.node
  /-- The other one does in its. -/
  there : mate.toPosition.node? other = some mate.node
  /-- No more links may be followed from there than from where a path begins. -/
  links_le : directory.links ≤ World.maxLinks

namespace Counterpart

theorem symm (h : directory.Counterpart root other mate) : mate.Counterpart other root directory :=
  ⟨h.position.symm, h.path.symm, h.there, h.here, h.position ▸ h.links_le⟩

theorem name (h : directory.Counterpart root other mate) : directory.name = mate.name := by
  rw [Directory.name, h.position, Directory.name]

theorem pathOf (h : directory.Counterpart root other mate) (name : String) :
    directory.pathOf name = mate.pathOf name := by
  rw [Directory.pathOf, h.path, Directory.pathOf]

theorem place_eq (h : directory.Counterpart root other mate) : directory.place = mate.place :=
  congrArg Position.place h.position

theorem distinct (h : directory.Counterpart root other mate) (hroot : root.Distinct) :
    directory.node.Distinct :=
  hroot.of_at? h.here

/-- **A file that is found alike has the same text.** What its name leads to is the same in both
trees, or a directory in each. -/
theorem text?_eq_of_follow (h : directory.Counterpart root other mate) {name : String}
    (hfollow : World.follow root directory.toPosition [name]
      = World.follow other directory.toPosition [name])
    (hnode : ∀ position, World.follow root directory.toPosition [name] = .ok position →
      position.node? root = position.node? other
        ∨ ∃ entries others, position.node? root = some (.directory entries)
          ∧ position.node? other = some (.directory others)) :
    directory.text? root name = mate.text? other name := by
  unfold text? resolve?
  rw [← h.pathOf, ← h.position, ← hfollow]
  by_cases hpath : Path.fits (directory.pathOf name) = true
  · rw [if_pos hpath, if_pos hpath]
    cases hposition : World.follow root directory.toPosition [name] with
    | error fault => rfl
    | ok position =>
      dsimp only
      rcases hnode position hposition with heq | ⟨entries, others, hentries, hothers⟩
      · rw [heq]
      · rw [hentries, hothers]
  · rw [if_neg hpath, if_neg hpath]

/-! ## What the two hold -/

/-- What the one holds has its counterpart in the other, as long as they lie outside the place. -/
theorem exists_subdirectory (h : directory.Counterpart root other mate)
    (hdiffer : Node.DifferAt place root other) (hout : ¬ place <:+ directory.place)
    {held : Directory} (hheld : held ∈ directory.subdirectories) :
    ∃ heldMate ∈ mate.subdirectories, held.Counterpart root other heldMate := by
  obtain ⟨name, entries, hmem, rfl⟩ := mem_subdirectories.1 hheld
  have hfind := (Node.find?_eq_some_iff (h.distinct hdiffer.distinct).names).2 hmem
  have hhere := (Position.node?_cons h.here name).trans hfind
  have hthere := Position.node?_cons h.there name
  have halike := hdiffer.node?_alike (Position.not_within_cons hout name directory.links)
  rw [h.position] at hhere halike ⊢
  rw [hhere, hthere] at halike
  generalize hfound : Node.find? name mate.entries = found at halike
  cases halike with
  | some halike =>
    cases halike with
    | directory _ others =>
      exact ⟨⟨⟨name :: mate.place, mate.links⟩, mate.pathOf name, others⟩,
        mem_subdirectories.2 ⟨name, others, Node.mem_of_find? hfound, rfl⟩, rfl, h.pathOf name,
        hhere, hthere.trans hfound, h.position ▸ h.links_le⟩

/-- **What the two hold corresponds one by one**, in the order of the names. -/
theorem subdirectories (h : directory.Counterpart root other mate)
    (hdiffer : Node.DifferAt place root other) (hout : ¬ place <:+ directory.place) :
    List.Forall₂ (Counterpart root other) directory.subdirectories mate.subdirectories := by
  refine forall₂_of_ascending (fun _ _ h => h.name)
    (subdirectories_ascending (h.distinct hdiffer.distinct))
    (subdirectories_ascending (h.symm.distinct hdiffer.distinct'))
    (fun held => h.exists_subdirectory hdiffer hout) fun held hheld => ?_
  obtain ⟨heldMate, hmem, hmate⟩ :=
    h.symm.exists_subdirectory hdiffer.symm (h.place_eq ▸ hout) hheld
  exact ⟨heldMate, hmem, hmate.symm⟩

/-- A directory that one outside the place holds is at the place or outside it as well. -/
theorem place_of_suffix (hout : ¬ place <:+ directory.place) {held : Directory}
    (hheld : held ∈ directory.subdirectories) (hin : place <:+ held.place) :
    held.place = place := by
  obtain ⟨name, entries, -, rfl⟩ := mem_subdirectories.1 hheld
  exact ((List.suffix_cons_iff.1 hin).resolve_right hout).symm

/-- What lies below the one at the place has a directory at the same position, come to by the same
path, below the other. -/
theorem exists_below (h : directory.Counterpart root other mate) {inner : Directory}
    (hinner : inner.Below mate) {held : List (String × Node)}
    (hheld : root.at? inner.place.reverse = some (.directory held)) :
    Below ⟨inner.toPosition, inner.path, held⟩ directory := by
  obtain ⟨names, entries, hne, -, rfl⟩ := hinner
  refine ⟨names, held, hne, ?_, ?_⟩
  · dsimp only at hheld
    rw [← h.place_eq, List.reverse_append, List.reverse_reverse, Node.at?_append] at hheld
    have hhere : root.at? directory.place.reverse = some directory.node := h.here
    rwa [hhere] at hheld
  · rw [← h.path, ← h.place_eq, show mate.links = directory.links by rw [h.position]]

/-! ## What is found below them -/

section Outermost

variable {p q : Directory → Bool} (hdiffer : Node.DifferAt place root other)
  (hsame : ∀ {directory mate : Directory}, directory.Counterpart root other mate →
    ¬ place <:+ directory.place → p directory = q mate)
include hdiffer hsame

/-- **The outermost directories with a property that are found below the two correspond one by
one**, apart from what is found at the place. In the one tree nothing must be found strictly inside
the place, and in the other tree the directory at the place must have the property. -/
theorem outermostBelow (h : directory.Counterpart root other mate)
    (hout : ¬ place <:+ directory.place)
    (hplace : ∀ inner : Directory, inner.Below mate → inner.place = place → q inner = true)
    (hfound : ∀ found ∈ directory.outermostBelow p,
      place <:+ found.place → found.place = place) :
    List.Forall₂ (fun found foundMate => found.Counterpart root other foundMate
        ∧ ¬ place <:+ found.place)
      ((directory.outermostBelow p).filter (·.place ≠ place))
      ((mate.outermostBelow q).filter (·.place ≠ place)) := by
  induction directory using Directory.induction generalizing mate with
  | step directory ih =>
    have hheld := forall₂_mem (h.subdirectories hdiffer hout)
    rw [Directory.outermostBelow, Directory.outermostBelow, List.filter_flatMap,
      List.filter_flatMap]
    refine List.rel_flatMap hheld fun held heldMate hboth => ?_
    obtain ⟨⟨hmem, hmem'⟩, hmate⟩ := hboth
    have hdistinct' := h.symm.distinct hdiffer.distinct'
    have hfound' : ∀ found ∈ held.outermost p, place <:+ found.place → found.place = place :=
      fun found hin => hfound found (List.mem_flatMap.2 ⟨held, hmem, hin⟩)
    by_cases hin : place <:+ held.place
    · -- nothing is left of either side: all that is found from here on is at the place
      have hdistinct := distinct_of_mem_subdirectories (h.distinct hdiffer.distinct) hmem
      have hleft : (held.outermost p).filter (·.place ≠ place) = [] := by
        refine List.filter_eq_nil_iff.2 fun found hmem => ?_
        have := hfound' found hmem (hin.trans (suffix_of_mem_outermost hdistinct hmem))
        simpa using this
      have hat : heldMate.place = place := hmate.place_eq ▸ place_of_suffix hout hmem hin
      have hright : (heldMate.outermost q).filter (·.place ≠ place) = [] := by
        rw [outermost_eq,
          if_pos (hplace heldMate (below_of_mem_subdirectories hdistinct' hmem') hat)]
        simpa using hat
      rw [hleft, hright]
      exact .nil
    · rw [outermost_eq] at hfound' ⊢
      rw [outermost_eq, ← hsame hmate hin]
      split
      · have hne : held.place ≠ place := fun heq => hin (heq ▸ List.suffix_refl _)
        rw [List.filter_singleton, List.filter_singleton, ← hmate.place_eq]
        simpa [hne] using ⟨hmate, hin⟩
      · rename_i hno
        rw [if_neg hno] at hfound'
        exact ih held hmem hmate hin
          (fun inner hinner => hplace inner (hinner.of_held hdistinct' hmem')) hfound'

/-- **What is found at the place is found there in the other tree as well.** -/
theorem exists_outermost (h : directory.Counterpart root other mate)
    (hout : ¬ place <:+ directory.place)
    (hplace : ∀ inner : Directory, inner.Below mate → inner.place = place → q inner = true)
    {found : Directory} (hfound : found ∈ directory.outermostBelow p) (hat : found.place = place) :
    ∃ foundMate ∈ mate.outermostBelow q, foundMate.place = place := by
  induction directory using Directory.induction generalizing mate with
  | step directory ih =>
    obtain ⟨held, hheld, hfound⟩ := List.mem_flatMap.1 hfound
    obtain ⟨heldMate, hmem, hmate⟩ := h.exists_subdirectory hdiffer hout hheld
    have hdistinct' := h.symm.distinct hdiffer.distinct'
    suffices hthere : ∃ foundMate ∈ heldMate.outermost q, foundMate.place = place by
      obtain ⟨foundMate, hfoundMate, hplace⟩ := hthere
      exact ⟨foundMate, List.mem_flatMap.2 ⟨heldMate, hmem, hfoundMate⟩, hplace⟩
    by_cases hin : place <:+ held.place
    · have hheldPlace : heldMate.place = place := hmate.place_eq ▸ place_of_suffix hout hheld hin
      rw [outermost_eq,
        if_pos (hplace heldMate (below_of_mem_subdirectories hdistinct' hmem) hheldPlace)]
      exact ⟨heldMate, List.mem_singleton_self _, hheldPlace⟩
    · rw [outermost_eq] at hfound ⊢
      rw [← hsame hmate hin]
      split
      · rename_i hyes
        rw [if_pos hyes, List.mem_singleton] at hfound
        exact absurd (hfound ▸ hat ▸ List.suffix_refl _) hin
      · rename_i hno
        rw [if_neg hno] at hfound
        exact ih held hheld hmate hin
          (fun inner hinner => hplace inner (hinner.of_held hdistinct' hmem)) hfound

end Outermost

end Counterpart

end Directory

/-! ## The sequences -/

namespace Snapshot

theorem openDirectory_eq_ok_iff {world : World} {path : String} {directory : Directory} :
    openDirectory world path = .ok directory ↔ world.reach path = .ok directory.toPosition
      ∧ directory.path = path ∧ directory.toPosition.node? world.root = some directory.node := by
  rw [openDirectory]
  cases hreach : world.reach path with
  | error fault => simp
  | ok position =>
    dsimp only
    constructor
    · intro h
      split at h
      · rename_i entries hnode
        obtain rfl := Except.ok.inj h
        exact ⟨rfl, rfl, hnode⟩
      · cases h
      · cases h
    · rintro ⟨hposition, rfl, hnode⟩
      obtain rfl := Except.ok.inj hposition
      rw [hnode]
      rfl

theorem mem_sequence {world : World} {path : String} {entry : Category × Directory} :
    entry ∈ sequence world path ↔ entry.2 ∈ found world path entry.1 := by
  obtain ⟨category, directory⟩ := entry
  rw [sequence_eq, List.mem_append, List.mem_map, List.mem_map]
  cases category <;> simp

/-- A rule directory that is found stands in the tree. -/
theorem node?_of_mem_sequence {world : World} {path : String} {entry : Category × Directory}
    (h : entry ∈ sequence world path) :
    entry.2.toPosition.node? world.root = some entry.2.node := by
  have hfound := mem_sequence.1 h
  rw [found] at hfound
  split at hfound
  · rename_i opened hopened
    exact Directory.node?_of_mem_rules (openDirectory_eq_ok_iff.1 hopened).2.2 world.distinct
      hfound
  · cases hfound

/-- **The sequences of two worlds correspond one by one** where what is found in each category
does. -/
theorem sequence_filter {world other : World} {path : String} {r : Directory → Directory → Prop}
    {p : Directory → Bool} (h : ∀ category : Category, List.Forall₂ r
      ((found world path category).filter p) ((found other path category).filter p)) :
    List.Forall₂ (fun entry mate => entry.1 = mate.1 ∧ r entry.2 mate.2)
      ((sequence world path).filter (p ·.2)) ((sequence other path).filter (p ·.2)) := by
  rw [sequence, sequence, List.filter_flatMap, List.filter_flatMap]
  have hcategories : List.Forall₂ Eq Category.all Category.all := List.forall₂_refl _
  refine List.rel_flatMap hcategories fun category _ hcategory => ?_
  subst hcategory
  rw [List.filter_map, List.filter_map, List.forall₂_map_left_iff, List.forall₂_map_right_iff]
  exact (h category).imp fun _ _ h => ⟨rfl, h⟩

end Snapshot

end Rulebook
