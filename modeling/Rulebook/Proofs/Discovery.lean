import Rulebook.Files.Build
import Rulebook.Snapshot
import Rulebook.Proofs.Tree
import Mathlib.Data.List.Forall2
import Mathlib.Data.List.Lex

/-!
# Which directories are taken for rules

A walk keeps a stack of open directories and is told to leave the rule directories it comes to. What
it finds is said here without a stack: `Directory.rules` stops at a rule directory and otherwise
goes on into the directories below, by recursion on the tree. `Directory.fold_walk` says that the
two agree, unless the walk breaks off: there may be directories that it comes to and cannot list
(`Directory.barred`), and then it fails with the error of the first of them.

Which directories these are is said by `Directory.mem_rules`: the rule directories that lie strictly
below, reached through real directories alone, and that have no other one above them on the way.
They come in the order of the names that lead to them (`Directory.rules_ascending`), which is the
order of a tree that is gone through with every directory before what it holds and with the names of
each directory ascending; so none of them comes twice.

Both kinds are the outermost directories with a property (`Directory.outermost`), which is to be
that of a rule, or to be one where a walk stops.
-/

namespace Rulebook

open Files (Node World)

namespace Directory

/-- The directory as a node of the tree. -/
def node (directory : Directory) : Node := .directory directory.entries

/-- The names that lead to the directory from the root on. -/
def names (directory : Directory) : List String := directory.place.reverse

/-! ## The directories that a directory holds -/

/-- Links, files and the order of the entries do not matter to which directories are held. -/
theorem mem_subdirectories {directory held : Directory} :
    held ∈ directory.subdirectories ↔ ∃ name entries,
      (name, Node.directory entries) ∈ directory.entries
        ∧ held = ⟨⟨name :: directory.place, directory.links⟩, directory.pathOf name, entries⟩ := by
  rw [subdirectories, children, List.mem_filterMap]
  constructor
  · rintro ⟨⟨name, node⟩, hmem, hchild⟩
    cases node with
    | directory entries =>
      exact ⟨name, entries, Node.mem_listing.1 hmem, (Option.some.inj hchild).symm⟩
    | file bytes => cases hchild
    | link target => cases hchild
  · rintro ⟨name, entries, hmem, rfl⟩
    exact ⟨(name, .directory entries), Node.mem_listing.2 hmem, rfl⟩

theorem sizeOf_lt_of_mem_subdirectories {directory held : Directory}
    (h : held ∈ directory.subdirectories) : sizeOf held.entries < sizeOf directory.entries := by
  obtain ⟨name, entries, hmem, rfl⟩ := mem_subdirectories.1 h
  have := List.sizeOf_lt_of_mem hmem
  simp only [Prod.mk.sizeOf_spec, Node.directory.sizeOf_spec] at this ⊢
  omega

theorem distinct_of_mem_subdirectories {directory held : Directory} (hd : directory.node.Distinct)
    (h : held ∈ directory.subdirectories) : held.node.Distinct := by
  obtain ⟨name, entries, hmem, rfl⟩ := mem_subdirectories.1 h
  cases hd with
  | directory _ _ nodes => exact nodes _ hmem

/-- **Two directories that a directory holds come in the order of their names.** -/
theorem subdirectories_ascending {directory : Directory} (h : directory.node.Distinct) :
    directory.subdirectories.Pairwise fun held other => held.name < other.name := by
  rw [subdirectories, children, List.pairwise_filterMap]
  refine (Node.listing_ascending h.names).imp fun {entry other} hlt held hheld next hnext => ?_
  obtain ⟨name, node⟩ := entry
  obtain ⟨otherName, otherNode⟩ := other
  cases node <;> cases hheld
  cases otherNode <;> cases hnext
  exact hlt

/-- In whatever order they are gone through, it is the same directories. -/
theorem subdirectories_perm (directory : Directory) :
    directory.subdirectories.Perm directory.children :=
  (Node.listing_perm directory.entries).filterMap directory.child?

theorem subdirectories_of_none {directory : Directory} (h : directory.children = []) :
    directory.subdirectories = [] :=
  List.perm_nil.1 (h ▸ directory.subdirectories_perm)

/-- A directory that is held alone is the only one that is gone through. -/
theorem subdirectories_of_single {directory held : Directory} (h : directory.children = [held]) :
    directory.subdirectories = [held] :=
  List.perm_singleton.1 (h ▸ directory.subdirectories_perm)

/-! ## What lies below -/

/-- **A directory lies strictly below another one**, from which real directories lead to it. -/
def Below (inner outer : Directory) : Prop :=
  ∃ names entries, names ≠ [] ∧ outer.node.at? names = some (.directory entries)
    ∧ inner = ⟨⟨names.reverse ++ outer.place, outer.links⟩, names.foldl Path.join outer.path,
      entries⟩

theorem Below.length_lt {inner outer : Directory} (h : inner.Below outer) :
    outer.place.length < inner.place.length := by
  obtain ⟨names, entries, hne, -, rfl⟩ := h
  have := List.length_pos_iff.2 hne
  simp only [List.length_append, List.length_reverse]
  omega

theorem Below.suffix {inner outer : Directory} (h : inner.Below outer) :
    outer.place <:+ inner.place := by
  obtain ⟨names, entries, -, -, rfl⟩ := h
  exact List.suffix_append _ _

/-- **What lies below a directory is a directory it holds or lies below one.** -/
theorem below_iff {inner outer : Directory} (h : outer.node.Distinct) :
    inner.Below outer ↔ ∃ held ∈ outer.subdirectories, inner = held ∨ inner.Below held := by
  constructor
  · rintro ⟨names, entries, hne, hat, rfl⟩
    obtain ⟨name, rest, rfl⟩ := List.exists_cons_of_ne_nil hne
    rw [node, Node.at?_cons] at hat
    obtain ⟨child, hfind, hat⟩ := Option.bind_eq_some_iff.1 hat
    have hmem := Node.mem_of_find? hfind
    cases rest with
    | nil =>
      obtain rfl := Option.some.inj hat
      exact ⟨_, mem_subdirectories.2 ⟨name, entries, hmem, rfl⟩, .inl rfl⟩
    | cons next rest =>
      cases child with
      | directory held =>
        refine ⟨_, mem_subdirectories.2 ⟨name, held, hmem, rfl⟩, .inr ?_⟩
        exact ⟨next :: rest, entries, List.cons_ne_nil _ _, hat, by simp [pathOf]⟩
      | file bytes => cases hat
      | link target => cases hat
  · rintro ⟨held, hheld, hinner⟩
    obtain ⟨name, entries, hmem, rfl⟩ := mem_subdirectories.1 hheld
    have hfind := (Node.find?_eq_some_iff h.names).2 hmem
    rcases hinner with rfl | ⟨names, inner, hne, hat, rfl⟩
    · refine ⟨[name], entries, List.cons_ne_nil _ _, ?_, rfl⟩
      rw [node, Node.at?_cons, hfind]
      rfl
    · refine ⟨name :: names, inner, List.cons_ne_nil _ _, ?_, by simp [pathOf]⟩
      rw [node, Node.at?_cons, hfind]
      exact hat

/-- A directory that is held lies below. -/
theorem below_of_mem_subdirectories {directory held : Directory} (h : directory.node.Distinct)
    (hheld : held ∈ directory.subdirectories) : held.Below directory :=
  (below_iff h).2 ⟨held, hheld, .inl rfl⟩

/-- What lies below a directory that is held lies below as well. -/
theorem Below.of_held {directory held inner : Directory} (hinner : inner.Below held)
    (h : directory.node.Distinct) (hheld : held ∈ directory.subdirectories) :
    inner.Below directory :=
  (below_iff h).2 ⟨held, hheld, .inr hinner⟩

/-! ## The outermost directories with a property, by recursion -/

/-- **The outermost directories with a property, from a directory on**: one that has it is the only
one, and otherwise they are those of the directories it holds. -/
def outermost (p : Directory → Bool) (directory : Directory) : List Directory :=
  if p directory then [directory]
  else directory.subdirectories.attach.flatMap fun held => outermost p held.1
termination_by sizeOf directory.entries
decreasing_by exact sizeOf_lt_of_mem_subdirectories held.2

/-- The outermost directories with a property below a directory. -/
def outermostBelow (p : Directory → Bool) (directory : Directory) : List Directory :=
  directory.subdirectories.flatMap (outermost p)

theorem outermost_eq (p : Directory → Bool) (directory : Directory) :
    directory.outermost p = if p directory then [directory] else directory.outermostBelow p := by
  rw [outermost, outermostBelow]
  congr 1
  rw [List.flatMap_subtype (g := outermost p) (fun _ _ => rfl), List.unattach_attach]

/-- **The rule directories below a directory**, none of which lies inside another one. -/
def rules (root : Node) (directory : Directory) : List Directory :=
  directory.outermostBelow (isRule root)

/-- A rule directory that is held alone is the only one found. -/
theorem rules_of_single {root : Node} {directory held : Directory}
    (hheld : directory.subdirectories = [held]) (hrule : held.isRule root = true) :
    directory.rules root = [held] := by
  rw [rules, outermostBelow, hheld, List.flatMap_singleton, outermost_eq, if_pos hrule]

/-- Nothing is found where no directory is held. -/
theorem rules_of_none {root : Node} {directory : Directory} (h : directory.children = []) :
    directory.rules root = [] := by
  rw [rules, outermostBelow, subdirectories_of_none h, List.flatMap_nil]

/-- **Induction on a directory**: what holds of it as soon as it holds of the directories it holds
holds of all. -/
theorem induction {motive : Directory → Prop} (directory : Directory)
    (step : ∀ directory : Directory, (∀ held ∈ directory.subdirectories, motive held) →
      motive directory) : motive directory :=
  step directory fun held _ => held.induction step
termination_by sizeOf directory.entries
decreasing_by exact sizeOf_lt_of_mem_subdirectories ‹_›

/-- **A directory with a property that counts below another one**: none lies between them that has
the property as well. -/
def IsOutermostBelow (p : Directory → Bool) (found directory : Directory) : Prop :=
  found.Below directory ∧ p found = true
    ∧ ∀ between : Directory, between.Below directory → found.Below between → p between = false

/-- **A rule directory that counts below a directory**: none lies between them that is a rule
directory as well. -/
def IsRuleBelow (root : Node) (found directory : Directory) : Prop :=
  found.Below directory ∧ found.isRule root = true
    ∧ ∀ between : Directory, between.Below directory → found.Below between →
      between.isRule root = false

/-- The held directory on the way to another one is known by its name. -/
theorem eq_of_suffix {directory held other inner : Directory} (h : directory.node.Distinct)
    (hheld : held ∈ directory.subdirectories) (hother : other ∈ directory.subdirectories)
    (hs : held.place <:+ inner.place) (hs' : other.place <:+ inner.place) : held = other := by
  obtain ⟨name, entries, hmem, rfl⟩ := mem_subdirectories.1 hheld
  obtain ⟨name', entries', hmem', rfl⟩ := mem_subdirectories.1 hother
  -- both places end the same place and are equally long
  have hplace := (List.suffix_of_suffix_length_le hs hs' (Nat.le_of_eq rfl)).eq_of_length rfl
  obtain rfl : name = name' := (List.cons.inj hplace).1
  have hfind := (Node.find?_eq_some_iff h.names).2 hmem
  have hfind' := (Node.find?_eq_some_iff h.names).2 hmem'
  rw [hfind, Option.some.injEq, Node.directory.injEq] at hfind'
  rw [hfind']

/-- What lies on the way to a directory in or below a held one is that one or lies below it. -/
theorem between_cases {directory held between inner : Directory} (h : directory.node.Distinct)
    (hheld : held ∈ directory.subdirectories) (hs : held.place <:+ inner.place)
    (hbetween : between.Below directory) (hinner : inner.Below between) :
    between = held ∨ between.Below held := by
  obtain ⟨other, hother, hcase⟩ := (below_iff h).1 hbetween
  have hs' : other.place <:+ inner.place := by
    rcases hcase with rfl | hcase
    · exact hinner.suffix
    · exact hcase.suffix.trans hinner.suffix
  obtain rfl := eq_of_suffix h hheld hother hs hs'
  exact hcase

/-- What counts below a directory, said of the directories it holds. -/
theorem isOutermostBelow_iff {p : Directory → Bool} {found directory : Directory}
    (h : directory.node.Distinct) :
    found.IsOutermostBelow p directory ↔ ∃ held ∈ directory.subdirectories,
      if p held then found = held else found.IsOutermostBelow p held := by
  constructor
  · rintro ⟨hbelow, hp, hnone⟩
    obtain ⟨held, hheld, hfound⟩ := (below_iff h).1 hbelow
    refine ⟨held, hheld, ?_⟩
    rcases hfound with rfl | hfound
    · rw [if_pos hp]
    · have hno := hnone held (below_of_mem_subdirectories h hheld) hfound
      rw [hno, if_neg Bool.false_ne_true]
      exact ⟨hfound, hp, fun between hbetween =>
        hnone between (hbetween.of_held h hheld)⟩
  · rintro ⟨held, hheld, hfound⟩
    split at hfound
    · rename_i hp
      subst hfound
      refine ⟨below_of_mem_subdirectories h hheld, hp, fun between hbetween hinner => ?_⟩
      -- nothing lies between a directory and one that it holds
      have := hinner.length_lt
      rcases between_cases h hheld (List.suffix_refl _) hbetween hinner with rfl | hcase
      · exact absurd this (Nat.lt_irrefl _)
      · exact absurd (this.trans hcase.length_lt) (Nat.lt_irrefl _)
    · rename_i hno
      obtain ⟨hbelow, hp, hnone⟩ := hfound
      refine ⟨hbelow.of_held h hheld, hp, fun between hbetween hinner => ?_⟩
      rcases between_cases h hheld hbelow.suffix hbetween hinner with rfl | hcase
      · exact Bool.eq_false_iff.2 hno
      · exact hnone between hcase hinner

/-- **The recursion finds exactly the directories that count.** -/
theorem mem_outermostBelow {p : Directory → Bool} {found directory : Directory}
    (h : directory.node.Distinct) :
    found ∈ directory.outermostBelow p ↔ found.IsOutermostBelow p directory := by
  induction directory using induction with
  | step directory ih =>
    rw [outermostBelow, List.mem_flatMap, isOutermostBelow_iff h]
    refine exists_congr fun held => and_congr_right fun hheld => ?_
    rw [outermost_eq]
    split
    · exact List.mem_singleton
    · exact ih held hheld (distinct_of_mem_subdirectories h hheld)

/-- **The rule directories that are found are exactly those that count.** -/
theorem mem_rules {root : Node} {found directory : Directory} (h : directory.node.Distinct) :
    found ∈ directory.rules root ↔ found.IsRuleBelow root directory :=
  mem_outermostBelow h

/-- What is found from a directory on is that directory or lies below it. -/
theorem suffix_of_mem_outermost {p : Directory → Bool} {found directory : Directory}
    (h : directory.node.Distinct) (hfound : found ∈ directory.outermost p) :
    directory.place <:+ found.place := by
  rw [outermost_eq] at hfound
  split at hfound
  · exact List.mem_singleton.1 hfound ▸ List.suffix_refl _
  · exact ((mem_outermostBelow h).1 hfound).1.suffix

/-- **What is found comes in the order of the names that lead to it.** -/
theorem outermostBelow_ascending (p : Directory → Bool) {directory : Directory}
    (h : directory.node.Distinct) :
    (directory.outermostBelow p).Pairwise fun found other => found.names < other.names := by
  induction directory using induction with
  | step directory ih =>
    rw [outermostBelow, List.pairwise_flatMap]
    refine ⟨fun held hheld => ?_, ?_⟩
    · rw [outermost_eq]
      split
      · exact List.pairwise_singleton _ _
      · exact ih held hheld (distinct_of_mem_subdirectories h hheld)
    · refine (subdirectories_ascending h).imp_of_mem
        fun {held other} hheld hother hlt found hfound next hnext => ?_
      have hs := suffix_of_mem_outermost (distinct_of_mem_subdirectories h hheld) hfound
      have hs' := suffix_of_mem_outermost (distinct_of_mem_subdirectories h hother) hnext
      obtain ⟨name, entries, -, rfl⟩ := mem_subdirectories.1 hheld
      obtain ⟨name', entries', -, rfl⟩ := mem_subdirectories.1 hother
      obtain ⟨more, hmore⟩ := hs
      obtain ⟨more', hmore'⟩ := hs'
      -- up to the directory the names agree, and the next ones decide
      rw [names, names, ← hmore, ← hmore', List.reverse_append, List.reverse_append,
        List.reverse_cons, List.reverse_cons, List.append_assoc, List.append_assoc]
      exact List.append_left_lt (.rel hlt)

/-- **The rule directories come in the order of the names that lead to them.** -/
theorem rules_ascending (root : Node) {directory : Directory} (h : directory.node.Distinct) :
    (directory.rules root).Pairwise fun found other => found.names < other.names :=
  outermostBelow_ascending _ h

/-- **Trees that correspond directory by directory have the same outermost directories**, as far as
the property is the same in both. -/
theorem forall₂_outermostBelow {r : Directory → Directory → Prop} {p q : Directory → Bool}
    (hheld : ∀ directory other, r directory other →
      List.Forall₂ r directory.subdirectories other.subdirectories)
    (hsame : ∀ directory other, r directory other → p directory = q other)
    {directory other : Directory} (h : r directory other) :
    List.Forall₂ r (directory.outermostBelow p) (other.outermostBelow q) := by
  induction directory using induction generalizing other with
  | step directory ih =>
    have hboth := (List.forall₂_and_left (p := (· ∈ directory.subdirectories)) _ _).2
      ⟨fun held hmem => hmem, hheld directory other h⟩
    rw [outermostBelow, outermostBelow]
    refine List.rel_flatMap hboth fun held mate ⟨hmem, hmate⟩ => ?_
    rw [outermost_eq, outermost_eq, hsame held mate hmate]
    split
    · exact .cons hmate .nil
    · exact ih held hmem hmate

/-! ## Where a walk stops -/

/-- The path of what a directory holds has room for both names. -/
theorem le_size_join (path : String) {name : String} (hname : Path.isAbsolute name = false) :
    path.utf8ByteSize + name.utf8ByteSize ≤ (Path.join path name).utf8ByteSize := by
  rw [Path.join, hname]
  split
  · rename_i hempty
    rw [Bool.false_or, String.isEmpty_iff] at hempty
    rw [hempty]
    exact Nat.le_of_eq (Nat.zero_add _)
  · split <;> simp only [String.utf8ByteSize_append] <;> omega

/-- The path of a directory is no longer than that of what it holds. -/
theorem isListable_of_fits {directory : Directory} {name : String}
    (hname : Path.isAbsolute name = false) (h : Path.fits (directory.pathOf name) = true) :
    directory.isListable = true := by
  have hsize := le_size_join directory.path hname
  have hroom := of_decide_eq_true h
  exact decide_eq_true (by rw [pathOf] at hroom; omega)

/-- **A rule directory can be listed**: the path of the file about its plugin is even longer. -/
theorem isListable_of_isRule {root : Node} {directory : Directory}
    (h : directory.isRule root = true) : directory.isListable = true := by
  refine isListable_of_fits (show Path.isAbsolute pluginFile = false by decide) ?_
  by_contra hlong
  rw [isRule, resolve?, if_neg hlong] at h
  cases h

theorem not_isRule_of_unlistable {root : Node} {directory : Directory}
    (h : directory.isListable = false) : ¬ directory.isRule root = true := fun hrule => by
  rw [isListable_of_isRule hrule] at h
  cases h

/-- Whether a walk goes no further than a directory: it is left there if the directory is that of a
rule, and breaks off if it cannot be listed. -/
def isStop (root : Node) (directory : Directory) : Bool :=
  directory.isRule root || !directory.isListable

/-- **Where a walk below a directory stops.** -/
def stops (root : Node) (directory : Directory) : List Directory :=
  directory.outermostBelow (isStop root)

/-- **The directories that a walk comes to and cannot list.** -/
def barred (root : Node) (directory : Directory) : List Directory :=
  (directory.stops root).filter (!·.isRule root)

/-- **What a walk comes to and cannot list is below the directory** and has nothing above it that is
of a rule or cannot be listed either. -/
theorem mem_barred {root : Node} {found directory : Directory} (h : directory.node.Distinct) :
    found ∈ directory.barred root ↔ found.Below directory ∧ found.isListable = false
      ∧ ∀ between : Directory, between.Below directory → found.Below between →
        between.isRule root = false ∧ between.isListable = true := by
  have hstop (other : Directory) :
      other.isStop root = false ↔ other.isRule root = false ∧ other.isListable = true := by
    simp [isStop]
  have hfound : found.isStop root = true ∧ found.isRule root = false
      ↔ found.isListable = false := by
    cases hlist : found.isListable with
    | true => simp [isStop, hlist]
    | false =>
      have hno : found.isRule root = false := Bool.eq_false_iff.2 (not_isRule_of_unlistable hlist)
      simp [isStop, hlist, hno]
  rw [barred, List.mem_filter, stops, mem_outermostBelow h, IsOutermostBelow, ← hfound]
  simp only [hstop, Bool.not_eq_true']
  tauto

/-- **Directories that correspond are barred alike** where their paths are the same. -/
theorem map_barred_eq {r : Directory → Directory → Prop} {root other : Node}
    (hheld : ∀ directory mate, r directory mate →
      List.Forall₂ r directory.subdirectories mate.subdirectories)
    (hrule : ∀ directory mate, r directory mate → directory.isRule root = mate.isRule other)
    (hpath : ∀ directory mate, r directory mate → directory.path = mate.path)
    {directory mate : Directory} (h : r directory mate) :
    (directory.barred root).map unlistable = (mate.barred other).map unlistable := by
  have hstop (directory mate : Directory) (h : r directory mate) :
      directory.isStop root = mate.isStop other := by
    rw [isStop, isStop, hrule _ _ h, isListable, hpath _ _ h, isListable]
  have hstops : List.Forall₂ r (directory.stops root) (mate.stops other) :=
    forall₂_outermostBelow hheld hstop h
  rw [barred, barred]
  generalize directory.stops root = these at hstops ⊢
  generalize mate.stops other = those at hstops ⊢
  induction hstops with
  | nil => rfl
  | cons hsame _ ih =>
    rw [List.filter_cons, List.filter_cons, hrule _ _ hsame]
    split
    · rw [List.map_cons, List.map_cons, ih, unlistable, unlistable, hpath _ _ hsame]
    · exact ih

/-- **Where nothing is barred a walk stops at the rule directories.** -/
theorem stops_eq_rules {root : Node} {directory : Directory} (h : directory.barred root = []) :
    directory.stops root = directory.rules root := by
  have hrules : ∀ stop ∈ directory.stops root, stop.isRule root = true := by
    simpa [barred, List.filter_eq_nil_iff] using h
  clear h
  induction directory using induction with
  | step directory ih =>
    rw [stops, outermostBelow] at hrules ⊢
    rw [rules, outermostBelow]
    refine List.flatMap_congr fun held hheld => ?_
    have hheld' : ∀ stop ∈ held.outermost (isStop root), stop.isRule root = true :=
      fun stop hstop => hrules stop (List.mem_flatMap.2 ⟨held, hheld, hstop⟩)
    rw [outermost_eq] at hheld' ⊢
    rw [outermost_eq]
    by_cases hrule : held.isRule root = true
    · rw [if_pos hrule, if_pos (by simp [isStop, hrule])]
    · rw [if_neg hrule]
      split at hheld' <;> rename_i hstop
      · exact absurd (hheld' held (List.mem_singleton_self _)) hrule
      · rw [if_neg hstop]
        exact ih held hheld hheld'

/-- The path of what a directory holds is longer by the name and a slash, at most. -/
theorem size_pathOf_le (directory : Directory) (name : String) :
    (directory.pathOf name).utf8ByteSize
      ≤ directory.path.utf8ByteSize + (1 + name.utf8ByteSize) := by
  rw [pathOf, Path.join]
  have hslash : "/".utf8ByteSize = 1 := by decide
  split
  · omega
  · split <;> simp only [String.utf8ByteSize_append] <;> omega

/-- **Nothing is barred where all paths are short enough.** -/
theorem barred_of_extent {root : Node} {directory : Directory}
    (h : directory.path.utf8ByteSize + directory.node.extent ≤ Path.maxSize) :
    directory.barred root = [] := by
  rw [barred, List.filter_eq_nil_iff]
  induction directory using induction with
  | step directory ih =>
    intro stop hstop
    obtain ⟨held, hheld, hstop⟩ := List.mem_flatMap.1 hstop
    have hroom : held.path.utf8ByteSize + held.node.extent ≤ Path.maxSize := by
      obtain ⟨name, entries, hmem, rfl⟩ := mem_subdirectories.1 hheld
      have hextent := Node.le_extentAll hmem
      have hpath := directory.size_pathOf_le name
      rw [node, Node.extent] at h
      show (directory.pathOf name).utf8ByteSize + (Node.directory entries).extent ≤ _
      omega
    have hlist : held.isListable = true := decide_eq_true (by omega)
    rw [outermost_eq] at hstop
    split at hstop
    · rename_i hheldStop
      rw [isStop, hlist, Bool.not_true, Bool.or_false] at hheldStop
      rw [List.mem_singleton.1 hstop, hheldStop]
      exact Bool.false_ne_true
    · exact ih held hheld hroom stop hstop

end Directory

/-! ## The walk -/

namespace Walk

/-- Where a walk has still to stop. A directory that was opened and cannot be listed is a stop
itself. -/
def stops (root : Node) (walk : Walk) : List Directory :=
  walk.flatMap fun directory =>
    if directory.isListable then
      directory.children.flatMap (Directory.outermost (Directory.isStop root))
    else [directory]

/-- What happens where a walk stops. -/
def visit {σ : Type} (root : Node) (act : σ → Directory → σ) (state : σ) (directory : Directory) :
    Except Error σ :=
  if directory.isRule root then .ok (act state directory) else .error directory.unlistable

@[simp] theorem leave_enter (directory : Directory) (walk : Walk) :
    (enter directory walk).leave = walk := rfl

/-- A directory that has been opened has its stops below it. -/
theorem stops_enter (root : Node) {directory : Directory} (h : directory.isListable = true)
    (walk : Walk) :
    (enter directory walk).stops root = directory.stops root ++ walk.stops root := by
  rw [stops, enter, List.flatMap_cons, if_pos (show directory.listed.isListable = true from h)]
  rfl

/-- One that cannot be listed is a stop itself. -/
theorem stops_enter_unlistable (root : Node) {directory : Directory}
    (h : directory.isListable = false) (walk : Walk) :
    (enter directory walk).stops root = directory.listed :: walk.stops root := by
  have hlisted : directory.listed.isListable = false := h
  rw [stops, enter, List.flatMap_cons, hlisted]
  rfl

section Step

variable {root : Node} {position : Files.Position} {path : String}

/-- A directory that can be listed adds the stops from what it holds on. -/
theorem stops_cons (h : Path.fits path = true) (entries : List (String × Node)) (outer : Walk) :
    stops root (⟨position, path, entries⟩ :: outer)
      = (Directory.children ⟨position, path, entries⟩).flatMap
        (Directory.outermost (Directory.isStop root)) ++ stops root outer := by
  have hlist : Directory.isListable ⟨position, path, entries⟩ = true := h
  rw [stops, List.flatMap_cons, if_pos hlist]
  rfl

/-- What an entry adds to the stops of a walk. -/
theorem stops_entry (h : Path.fits path = true) (entry : String × Node)
    (rest : List (String × Node)) (outer : Walk) :
    stops root (⟨position, path, entry :: rest⟩ :: outer)
      = (Directory.child? ⟨position, path, rest⟩ entry).toList.flatMap
          (Directory.outermost (Directory.isStop root))
        ++ stops root (⟨position, path, rest⟩ :: outer) := by
  have hchildren : Directory.children ⟨position, path, entry :: rest⟩
      = (Directory.child? ⟨position, path, rest⟩ entry).toList
        ++ Directory.children ⟨position, path, rest⟩ := by
    show List.filterMap (Directory.child? ⟨position, path, rest⟩) (entry :: rest) = _
    rw [List.filterMap_cons]
    cases Directory.child? ⟨position, path, rest⟩ entry <;> rfl
  rw [stops_cons h, stops_cons h, hchildren, List.flatMap_append, List.append_assoc]

end Step

/-- **One step of a walk, and where it has still to stop.** It breaks off at the next stop, or ends
when there is none. What it passes by is no stop. A directory that it comes to is opened, and where
the walk stops from there on without it is where it stops once it is left. -/
theorem stops_next (root : Node) (walk : Walk) : match walk.next with
    | .error error => ∃ directory outer, walk.stops root = directory :: outer
        ∧ directory.isListable = false ∧ error = directory.unlistable
    | .ok none => walk.stops root = []
    | .ok (some (none, after)) => walk.stops root = after.stops root
    | .ok (some (some directory, after)) => ∃ outer : Walk, after = enter directory outer
        ∧ walk.stops root = directory.outermost (Directory.isStop root) ++ outer.stops root := by
  induction walk with
  | nil => rfl
  | cons directory outer ih =>
    cases hlist : directory.isListable with
    | false =>
      rw [next_unlistable hlist]
      refine ⟨directory, stops root outer, ?_, hlist, rfl⟩
      rw [stops, List.flatMap_cons, hlist]
      rfl
    | true =>
      obtain ⟨position, path, entries⟩ := directory
      cases entries with
      | nil =>
        rw [next_nil hlist, stops_cons hlist]
        exact ih
      | cons entry rest =>
        rw [next_entry hlist, stops_entry hlist]
        cases Directory.child? ⟨position, path, rest⟩ entry with
        | none => rfl
        | some child => exact ⟨_, rfl, by rw [Option.toList_some, List.flatMap_singleton]⟩

/-- **A walk is the sequence of its stops.** -/
theorem fold_eq {σ : Type} (root : Node) (act : σ → Directory → σ) (state : σ) (walk : Walk) :
    walk.fold root act state = (walk.stops root).foldlM (visit root act) state := by
  fun_induction fold root act state walk with
  | case1 state walk error h =>
    have hstops := stops_next root walk
    rw [h] at hstops
    obtain ⟨directory, outer, hstops, hlist, rfl⟩ := hstops
    rw [hstops, List.foldlM_cons, visit, if_neg (Directory.not_isRule_of_unlistable hlist)]
    rfl
  | case2 state walk h =>
    have hstops := stops_next root walk
    rw [h] at hstops
    rw [hstops]
    rfl
  | case3 state walk after h ih =>
    have hstops := stops_next root walk
    rw [h] at hstops
    rw [ih, hstops]
  | case4 state walk directory after h hrule ih =>
    -- what is left behind is the directory that was opened, and it counts as a whole
    have hstops := stops_next root walk
    rw [h] at hstops
    obtain ⟨outer, rfl, hstops⟩ := hstops
    have hstop : directory.isStop root = true := by rw [Directory.isStop, hrule, Bool.true_or]
    rw [ih, hstops, Directory.outermost_eq, if_pos hstop, leave_enter, List.singleton_append,
      List.foldlM_cons, visit, if_pos hrule]
    rfl
  | case5 state walk directory after h hrule ih =>
    have hstops := stops_next root walk
    rw [h] at hstops
    obtain ⟨outer, rfl, hstops⟩ := hstops
    rw [ih, hstops, Directory.outermost_eq]
    cases hlist : directory.isListable with
    | true =>
      have hstop : ¬ directory.isStop root = true := by simp [Directory.isStop, hrule, hlist]
      rw [stops_enter root hlist, if_neg hstop]
      rfl
    | false =>
      -- nothing has left the directory, so the walk breaks off at the next step
      have hstop : directory.isStop root = true := by simp [Directory.isStop, hlist]
      have hlisted : ¬ directory.listed.isRule root = true :=
        Directory.not_isRule_of_unlistable (show directory.listed.isListable = false from hlist)
      rw [stops_enter_unlistable root hlist, if_pos hstop, List.singleton_append,
        List.foldlM_cons, List.foldlM_cons, visit, visit, if_neg hlisted, if_neg hrule]
      rfl

/-- A sequence of stops is gone through up to the first that is of no rule. -/
theorem foldlM_visit {σ : Type} (root : Node) (act : σ → Directory → σ) (state : σ)
    (directories : List Directory) : directories.foldlM (visit root act) state
      = match (directories.filter (!·.isRule root)).head? with
        | some barred => .error barred.unlistable
        | none => .ok (directories.foldl act state) := by
  induction directories generalizing state with
  | nil => rfl
  | cons directory rest ih =>
    rw [List.foldlM_cons, visit]
    by_cases hrule : directory.isRule root = true
    · rw [if_pos hrule, List.filter_cons_of_neg (by simp [hrule])]
      exact ih _
    · rw [if_neg hrule, List.filter_cons_of_pos (by simpa using hrule)]
      rfl

end Walk

namespace Directory

/-- A result, unless a walk below the directory breaks off before. -/
def unlessBarred {α : Type} (root : Node) (directory : Directory) (result : α) : Except Error α :=
  match (directory.barred root).head? with
  | some barred => .error barred.unlistable
  | none => .ok result

theorem unlessBarred_of_nil {α : Type} {root : Node} {directory : Directory}
    (h : directory.barred root = []) (result : α) :
    directory.unlessBarred root result = .ok result := by
  rw [unlessBarred, h]
  rfl

/-- A walk breaks off alike below directories that are barred alike. -/
theorem unlessBarred_congr {α : Type} {root other : Node} {directory mate : Directory}
    (h : (directory.barred root).map unlistable = (mate.barred other).map unlistable)
    (result : α) : directory.unlessBarred root result = mate.unlessBarred other result := by
  have hhead := congrArg List.head? h
  rw [List.head?_map, List.head?_map] at hhead
  rw [unlessBarred, unlessBarred]
  generalize (directory.barred root).head? = first at hhead ⊢
  generalize (mate.barred other).head? = first' at hhead ⊢
  cases first <;> cases first' <;> simp_all

theorem unlessBarred_eq_ok_iff {α : Type} {root : Node} {directory : Directory}
    {result value : α} : directory.unlessBarred root result = .ok value
      ↔ directory.barred root = [] ∧ result = value := by
  rw [unlessBarred]
  cases directory.barred root <;> simp

/-- **A walk goes through the rule directories that the recursion finds**, one after the other, or
breaks off at the first directory that it cannot list. -/
theorem fold_walk {σ : Type} {root : Node} {directory : Directory}
    (h : directory.isListable = true) (act : σ → Directory → σ) (state : σ) :
    directory.walk.fold root act state
      = directory.unlessBarred root ((directory.rules root).foldl act state) := by
  have hwalk : directory.walk.stops root = directory.stops root := by
    rw [walk, Walk.stops_enter root h]
    exact List.append_nil _
  rw [Walk.fold_eq, hwalk, Walk.foldlM_visit, ← barred, unlessBarred]
  cases hbarred : directory.barred root with
  | nil => rw [stops_eq_rules hbarred]
  | cons barred others => rfl

end Directory

/-! ## The categories -/

namespace Snapshot

/-- A directory that is opened lists no name twice. -/
theorem distinct_of_openDirectory {world : World} {path : String} {directory : Directory}
    (h : openDirectory world path = .ok directory) : directory.node.Distinct := by
  rw [openDirectory] at h
  split at h
  · cases h
  · split at h
    · rename_i hnode
      obtain rfl := Except.ok.inj h
      exact world.distinct.of_at? hnode
    · cases h
    · cases h

/-- A directory that is opened can be listed. -/
theorem isListable_of_openDirectory {world : World} {path : String} {directory : Directory}
    (h : openDirectory world path = .ok directory) : directory.isListable = true := by
  rw [openDirectory] at h
  split at h
  · cases h
  · rename_i hreach
    split at h
    · obtain rfl := Except.ok.inj h
      exact World.fits_of_reach hreach
    · cases h
    · cases h

/-- **Loading a category loads the rules found below its directory**, one after the other, unless
the walk breaks off. -/
theorem loadCategory_eq {world : World} {path : String} {category : Category}
    {directory : Directory} (h : openDirectory world (Path.join path category.name) = .ok directory)
    (codes : LabelCodes) (snapshot : Snapshot) :
    loadCategory world path codes category snapshot = directory.unlessBarred world.root
      ((directory.rules world.root).foldl (loadRule world.root codes category) snapshot) := by
  rw [loadCategory, h, ← Directory.fold_walk (isListable_of_openDirectory h)]
  rfl

/-! ## A content in the root -/

section Here

variable {world : World} {entries : List (String × Node)}

/-- Whether a name is one that is looked for where a content is. -/
def IsSought (name : String) : Prop :=
  name = labelCodesFile ∨ ∃ category : Category, name = category.name

/-- What is sought is looked for in the root, as the path says. -/
theorem steps_here {name : String} (hname : IsSought name) :
    Path.isAbsolute (Path.join "." name) = false
      ∧ Path.steps (Path.join "." name) = [".", name] := by
  rcases hname with rfl | ⟨_ | _, rfl⟩ <;> decide

/-- What is sought is reached from the root. -/
theorem reach_eq_follow (hstart : world.start = []) {name : String} (hname : IsSought name) :
    world.reach (Path.join "." name)
      = World.follow world.root ⟨[], World.maxLinks⟩ [".", name] := by
  have hpath : (Path.join "." name).isEmpty = false
      ∧ (Path.join "." name).toList.contains '\x00' = false
      ∧ Path.fits (Path.join "." name) = true := by
    rcases hname with rfl | ⟨_ | _, rfl⟩ <;> decide
  rw [World.reach, hpath.1, hpath.2.1, hpath.2.2, (steps_here hname).1, (steps_here hname).2,
    hstart]
  rfl

/-- What lies in the root, and is no link, is reached at once from there. -/
theorem reach_here (hroot : world.root = .directory entries) (hstart : world.start = [])
    {name : String} (hname : IsSought name) {node : Node}
    (hfind : Node.find? name entries = some node) (hnode : ∀ target, node ≠ .link target) :
    world.reach (Path.join "." name) = .ok ⟨[name], World.maxLinks⟩
      ∧ Files.Position.node? world.root ⟨[name], World.maxLinks⟩ = some node := by
  have hplain : name ≠ "." ∧ name ≠ ".." ∧ name.utf8ByteSize ≤ World.maxName := by
    rcases hname with rfl | ⟨_ | _, rfl⟩ <;> decide
  have hhere : Files.Position.node? (.directory entries) ⟨[], World.maxLinks⟩
      = some (.directory entries) := rfl
  have hstay : World.step (.directory entries) ⟨[], World.maxLinks⟩ "."
      = .ok (⟨[], World.maxLinks⟩, []) := by
    rw [World.step, hhere]
    rfl
  have hnode' := Files.Position.node?_cons hhere name
  refine ⟨?_, by rw [hroot, hnode', hfind]⟩
  rw [reach_eq_follow hstart hname, hroot, World.follow_cons, hstay]
  show World.follow _ ⟨[], World.maxLinks⟩ [name] = _
  rw [World.follow_cons, World.step_eq_stepInto hhere hplain, World.stepInto_entry hfind hnode]
  exact World.follow_nil _ _

/-- A category in the root is opened at once. -/
theorem openDirectory_here (hroot : world.root = .directory entries) (hstart : world.start = [])
    (category : Category) {held : List (String × Node)}
    (hfind : Node.find? category.name entries = some (.directory held)) :
    openDirectory world (Path.join "." category.name)
      = .ok ⟨⟨[category.name], World.maxLinks⟩, Path.join "." category.name, held⟩ := by
  obtain ⟨hreach, hnode⟩ := reach_here hroot hstart (.inr ⟨category, rfl⟩) hfind (by simp)
  rw [openDirectory, hreach]
  simp only [hnode]
  rfl

end Here

/-- A content in which a rule directory lies inside another one, a directory stands where the file
would be that marks a rule, a link leads to that file, and a name occurs in both categories. -/
def nestedContent : World := .ofPlaces [] [
  (["config.yaml"], .file []),
  (["external", "outer", "plugin.yaml"], .file []),
  (["external", "outer", "inner", "plugin.yaml"], .file []),
  (["external", "group", "plugin.yaml"], .directory []),
  (["external", "group", "rule", "plugin.yaml"], .link "../../outer/plugin.yaml"),
  (["internal", "outer", "plugin.yaml"], .file [])]

/-- The directory of the external rules of that content. -/
def nestedExternal : Directory where
  place := ["external"]
  links := World.maxLinks
  path := "./external"
  entries := [
    ("outer", .directory [("plugin.yaml", .file []),
      ("inner", .directory [("plugin.yaml", .file [])])]),
    ("group", .directory [("plugin.yaml", .directory []),
      ("rule", .directory [("plugin.yaml", .link "../../outer/plugin.yaml")])])]

/-- The directory of the internal rules of that content. -/
def nestedInternal : Directory where
  place := ["internal"]
  links := World.maxLinks
  path := "./internal"
  entries := [("outer", .directory [("plugin.yaml", .file [])])]

theorem nestedContent_root : nestedContent.root = .directory [("config.yaml", .file []),
    ("external", nestedExternal.node), ("internal", nestedInternal.node)] := rfl

theorem openDirectory_nestedContent :
    openDirectory nestedContent (Path.join "." Category.external.name) = .ok nestedExternal
      ∧ openDirectory nestedContent (Path.join "." Category.internal.name) = .ok nestedInternal :=
  ⟨openDirectory_here nestedContent_root rfl .external rfl,
    openDirectory_here nestedContent_root rfl .internal rfl⟩

/-! ## What is discovered -/

/-- **The discovery of rules is exact.** The directories that are handed over to be loaded, whatever
is done with each of them, are those of the recursion that stops at a rule directory and otherwise
descends. They are the rule directories strictly below the category that real directories alone lead
to and above which there is no other, each of them once, in the order of the names on the way.

Only a directory that cannot be listed keeps them from being loaded. It lies below the category as
well, and neither it nor any directory on the way to it is that of a rule. -/
theorem loadCategory_discovers (world : World) (path : String) (category : Category)
    {directory : Directory}
    (h : openDirectory world (Path.join path category.name) = .ok directory) :
    (∀ (codes : LabelCodes) (snapshot : Snapshot),
      loadCategory world path codes category snapshot = directory.unlessBarred world.root
        ((directory.rules world.root).foldl (loadRule world.root codes category) snapshot))
      ∧ (∀ {σ : Type} (act : σ → Directory → σ) (state : σ),
        directory.walk.fold world.root act state
          = directory.unlessBarred world.root ((directory.rules world.root).foldl act state))
      ∧ (∀ found, found ∈ directory.rules world.root ↔ found.IsRuleBelow world.root directory)
      ∧ (directory.rules world.root).Pairwise (fun found other => found.names < other.names)
      ∧ (directory.rules world.root).Nodup
      ∧ ∀ found, found ∈ directory.barred world.root ↔ found.Below directory
        ∧ found.isListable = false ∧ ∀ between : Directory, between.Below directory →
          found.Below between → between.isRule world.root = false ∧ between.isListable = true := by
  have hdistinct := distinct_of_openDirectory h
  have hascending := Directory.rules_ascending world.root hdistinct
  refine ⟨loadCategory_eq h, Directory.fold_walk (isListable_of_openDirectory h),
    fun found => Directory.mem_rules hdistinct, hascending, ?_,
    fun found => Directory.mem_barred hdistinct⟩
  refine hascending.imp fun {found other} hlt heq => ?_
  exact List.lt_irrefl other.names (heq ▸ hlt)

/-- What is found among the external rules of that content. -/
theorem loadCategory_discovers_nestedContent :
    openDirectory nestedContent (Path.join "." Category.external.name) = .ok nestedExternal
      ∧ ∀ found, found ∈ nestedExternal.rules nestedContent.root
        ↔ found.IsRuleBelow nestedContent.root nestedExternal :=
  have h := openDirectory_nestedContent.1
  ⟨h, (loadCategory_discovers nestedContent "." .external h).2.2.1⟩

end Snapshot

end Rulebook
