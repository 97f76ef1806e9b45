import Rulebook.Proofs.Tree

/-!
# Trees that differ at one place

Something in a tree is taken away and something else of the same kind put there: a directory in the
place of a directory, a file in the place of a file. The two trees are then the same everywhere
outside the place (`Node.ReplacedAt.at?_outside`), except that the directories on the way there hold
different things.

A path is followed alike in both trees as long as it stays outside. `World.Enters` says that it does
not: that it comes to look for something inside the place. `World.follow_eq_of_not_enters` is what
that is for. Where a file was replaced no path can look inside, so all paths are followed alike
(`World.follow_eq_of_file`), and they differ at most in the bytes that are read at their end.
-/

namespace Rulebook.Files

namespace Node

/-! ## The replacement -/

/-- **Two nodes of one kind**: two directories, two files, or one link. -/
inductive Alike : Node → Node → Prop
  /-- Two files with any bytes. -/
  | file (bytes others : List UInt8) : Alike (.file bytes) (.file others)
  /-- Two directories that hold anything. -/
  | directory (entries others : List (String × Node)) :
    Alike (.directory entries) (.directory others)
  /-- The same link. -/
  | link (target : String) : Alike (.link target) (.link target)

namespace Alike

theorem refl (node : Node) : node.Alike node := by
  cases node with
  | file bytes => exact .file bytes bytes
  | directory entries => exact .directory entries entries
  | link target => exact .link target

theorem symm {node other : Node} (h : node.Alike other) : other.Alike node := by
  cases h with
  | file bytes others => exact .file others bytes
  | directory entries others => exact .directory others entries
  | link target => exact .link target

end Alike

/-- **Two trees that differ only at the place to which names lead**, where two nodes of one kind
stand. -/
inductive ReplacedAt : List String → Node → Node → Prop
  /-- The nodes themselves differ. -/
  | here {node other : Node} (h : node.Alike other) : ReplacedAt [] node other
  /-- An entry of a directory differs at a place inside. -/
  | inside (before : List (String × Node)) (name : String) (after : List (String × Node))
    {rest : List String} {node other : Node} (h : ReplacedAt rest node other) :
    ReplacedAt (name :: rest) (.directory (before ++ (name, node) :: after))
      (.directory (before ++ (name, other) :: after))

/-- Another entry is found as before. -/
theorem find?_inside_of_ne {name key : String} (h : name ≠ key) (node other : Node)
    (before after : List (String × Node)) :
    find? key (before ++ (name, node) :: after) = find? key (before ++ (name, other) :: after) := by
  induction before with
  | nil => rw [List.nil_append, List.nil_append, find?, find?, if_neg h, if_neg h]
  | cons entry before ih => rw [List.cons_append, List.cons_append, find?, find?, ih]

/-- The entry itself is found, as its name is listed once. -/
theorem find?_inside_self {name : String} {node : Node} {before after : List (String × Node)}
    (h : (Node.directory (before ++ (name, node) :: after)).Distinct) :
    find? name (before ++ (name, node) :: after) = some node :=
  (find?_eq_some_iff h.names).2 (List.mem_append_right _ (List.mem_cons_self ..))

namespace ReplacedAt

variable {names : List String} {node other : Node}

theorem symm (h : ReplacedAt names node other) : ReplacedAt names other node := by
  induction h with
  | here h => exact .here h.symm
  | inside before name after h ih => exact .inside before name after ih

/-- **At the place itself stand two nodes of one kind.** -/
theorem at?_self (h : ReplacedAt names node other) (hd : node.Distinct) (hd' : other.Distinct) :
    ∃ replaced new, node.at? names = some replaced ∧ other.at? names = some new
      ∧ replaced.Alike new := by
  induction h with
  | here h => exact ⟨_, _, rfl, rfl, h⟩
  | inside before name after h ih =>
    have hfind := find?_inside_self hd
    have hfind' := find?_inside_self hd'
    obtain ⟨replaced, new, hat, hat', halike⟩ := ih (hd.of_find? hfind) (hd'.of_find? hfind')
    refine ⟨replaced, new, ?_, ?_, halike⟩
    · rw [at?_cons, hfind, Option.bind_some, hat]
    · rw [at?_cons, hfind', Option.bind_some, hat']

/-- **Outside the place the trees are the same**, except for what directories hold. -/
theorem at?_outside (h : ReplacedAt names node other) (hd : node.Distinct) (hd' : other.Distinct)
    {place : List String} (hplace : ¬ names <+: place) :
    node.at? place = other.at? place
      ∨ ∃ entries others, node.at? place = some (.directory entries)
        ∧ other.at? place = some (.directory others) := by
  induction h generalizing place with
  | here h => exact absurd (List.nil_prefix ..) hplace
  | @inside before name after rest node other h ih =>
    cases place with
    | nil => exact .inr ⟨_, _, rfl, rfl⟩
    | cons key more =>
      by_cases hkey : name = key
      · subst hkey
        have hfind := find?_inside_self hd
        have hfind' := find?_inside_self hd'
        rw [at?_cons, at?_cons, hfind, hfind', Option.bind_some, Option.bind_some]
        refine ih (hd.of_find? hfind) (hd'.of_find? hfind') fun hmore => hplace ?_
        exact List.cons_prefix_cons.2 ⟨rfl, hmore⟩
      · rw [at?_cons, at?_cons, find?_inside_of_ne hkey node other]
        exact .inl rfl

end ReplacedAt

end Node

/-! ## Positions -/

/-- A position that lies strictly inside a place. -/
def Position.Within (place : List String) (position : Position) : Prop :=
  place <:+ position.place ∧ position.place ≠ place

/-- One name further than outside a place is not yet strictly inside it. -/
theorem Position.not_within_cons {place outer : List String} (hout : ¬ place <:+ outer)
    (name : String) (links : Nat) : ¬ Position.Within place ⟨name :: outer, links⟩ := by
  rintro ⟨hsuffix, hne⟩
  rcases List.suffix_cons_iff.1 hsuffix with hplace | hsuffix
  · exact hne hplace.symm
  · exact hout hsuffix

/-- **Two trees that differ only at a place**, the names of which are given last name first. Neither
lists a name twice. -/
structure Node.DifferAt (place : List String) (root other : Node) : Prop where
  /-- The trees differ in nothing else. -/
  replaced : ReplacedAt place.reverse root other
  /-- The one lists no name twice. -/
  distinct : root.Distinct
  /-- Nor does the other. -/
  distinct' : other.Distinct

namespace Node.DifferAt

variable {place : List String} {root other : Node}

theorem symm (h : DifferAt place root other) : DifferAt place other root :=
  ⟨h.replaced.symm, h.distinct', h.distinct⟩

/-- At the place itself stand two nodes of one kind. -/
theorem node?_self (h : DifferAt place root other) (links : Nat) :
    ∃ replaced new, Position.node? root ⟨place, links⟩ = some replaced
      ∧ Position.node? other ⟨place, links⟩ = some new ∧ replaced.Alike new :=
  h.replaced.at?_self h.distinct h.distinct'

/-- **What stands outside the place is the same**, except for what directories hold. -/
theorem node?_outside (h : DifferAt place root other) {position : Position}
    (hout : ¬ place <:+ position.place) :
    position.node? root = position.node? other
      ∨ ∃ entries others, position.node? root = some (.directory entries)
        ∧ position.node? other = some (.directory others) :=
  h.replaced.at?_outside h.distinct h.distinct' fun hprefix => hout (List.reverse_prefix.1 hprefix)

/-- What stands anywhere but strictly inside the place is of one kind in both trees. -/
theorem node?_alike (h : DifferAt place root other) {position : Position}
    (hpos : ¬ position.Within place) :
    Option.Rel Alike (position.node? root) (position.node? other) := by
  by_cases hin : place <:+ position.place
  · have hplace : position.place = place := by
      by_contra hne
      exact hpos ⟨hin, hne⟩
    obtain ⟨names, links⟩ := position
    obtain rfl : names = place := hplace
    obtain ⟨replaced, new, hreplaced, hnew, halike⟩ := h.node?_self links
    rw [hreplaced, hnew]
    exact .some halike
  · rcases h.node?_outside hin with heq | ⟨entries, others, hentries, hothers⟩
    · rw [heq]
      cases position.node? other with
      | none => exact .none
      | some node => exact .some (.refl node)
    · rw [hentries, hothers]
      exact .some (.directory entries others)

end Node.DifferAt

namespace World

/-! ## One step -/

/-- A name leads to the same position in two directories that hold nodes of one kind under it. -/
theorem stepInto_alike {entries others : List (String × Node)} {position : Position} {name : String}
    (h : Option.Rel Node.Alike (Node.find? name entries) (Node.find? name others)) :
    stepInto entries position name = stepInto others position name := by
  rw [stepInto, stepInto]
  generalize Node.find? name entries = found at h ⊢
  generalize Node.find? name others = found' at h ⊢
  cases h with
  | none => rfl
  | some h => cases h <;> rfl

section Step

variable {place : List String} {root other : Node}

/-- **A component does the same in both trees** at a position outside the place. -/
theorem step_eq_of_outside (h : Node.DifferAt place root other) {position : Position}
    (hout : ¬ place <:+ position.place) (name : String) :
    step root position name = step other position name := by
  rcases h.node?_outside hout with heq | ⟨entries, others, hentries, hothers⟩
  · rw [step, step, heq]
  · have hfind := h.node?_alike (Position.not_within_cons hout name position.links)
    rw [Position.node?_cons hentries, Position.node?_cons hothers] at hfind
    rw [step, step, hentries, hothers]
    dsimp only
    rw [stepInto_alike hfind]

/-- A component that looks for nothing does the same at the place itself as well. -/
theorem step_eq_of_dots (h : Node.DifferAt place root other) {position : Position}
    (hpos : ¬ position.Within place) {name : String} (hname : name = "." ∨ name = "..") :
    step root position name = step other position name := by
  have hnode := h.node?_alike hpos
  rw [step, step]
  generalize position.node? root = here at hnode ⊢
  generalize position.node? other = there at hnode ⊢
  cases hnode with
  | none => rfl
  | some halike =>
    cases halike with
    | file bytes others => rfl
    | link target => rfl
    | directory entries others => rcases hname with rfl | rfl <;> rfl

/-- Nothing is inside a file. -/
theorem node?_of_suffix_file {tree : Node} {bytes : List UInt8}
    (hfile : tree.at? place.reverse = some (.file bytes)) {position : Position}
    (hin : place <:+ position.place) :
    position.node? tree = if position.place = place then some (.file bytes) else none := by
  obtain ⟨more, hmore⟩ := hin
  rw [Position.node?, ← hmore, List.reverse_append, Node.at?_append, hfile, Option.bind_some]
  cases more with
  | nil => rw [List.nil_append, if_pos rfl, List.reverse_nil, Node.at?]
  | cons name more =>
    have hne : name :: more ++ place ≠ place := by
      intro heq
      have := congrArg List.length heq
      simp only [List.length_append, List.length_cons] at this
      omega
    rw [if_neg hne]
    cases hnames : (name :: more).reverse with
    | nil => exact absurd (List.reverse_eq_nil_iff.1 hnames) (List.cons_ne_nil _ _)
    | cons first rest => rfl

/-- Nothing can be looked for in a file. -/
theorem step_of_suffix_file {tree : Node} {bytes : List UInt8}
    (hfile : tree.at? place.reverse = some (.file bytes)) {position : Position}
    (hin : place <:+ position.place) (name : String) :
    step tree position name = .error .notDirectory := by
  rw [step, node?_of_suffix_file hfile hin]
  by_cases hplace : position.place = place
  · rw [if_pos hplace]
    rfl
  · rw [if_neg hplace]
    rfl

/-- **Where a file was replaced a component does the same anywhere**, as nothing is inside. -/
theorem step_eq_of_file (h : Node.DifferAt place root other) {bytes : List UInt8}
    (hfile : root.at? place.reverse = some (.file bytes)) (position : Position) (name : String) :
    step root position name = step other position name := by
  by_cases hin : place <:+ position.place
  · obtain ⟨replaced, new, hreplaced, hnew, halike⟩ :=
      h.replaced.at?_self h.distinct h.distinct'
    obtain rfl := Option.some.inj (hreplaced.symm.trans hfile)
    cases halike with
    | file _ others => rw [step_of_suffix_file hfile hin, step_of_suffix_file hnew hin]
  · exact step_eq_of_outside h hin name

end Step

/-! ## Whole paths -/

/-- **Following components comes to look inside a place**: from a position strictly inside it, or at
the place itself with a name that is looked for there. -/
inductive Enters (root : Node) (place : List String) : Position → List String → Prop
  /-- The position is inside already. -/
  | inside {position : Position} {steps : List String} (h : position.Within place) :
    Enters root place position steps
  /-- A name is looked for at the place. -/
  | looks {position : Position} {name : String} {rest : List String}
    (h : position.place = place) (hname : name ≠ "." ∧ name ≠ "..") :
    Enters root place position (name :: rest)
  /-- It does so after a component. -/
  | later {position after : Position} {name : String} {rest more : List String}
    (h : step root position name = .ok (after, more))
    (henters : Enters root place after (more ++ rest)) : Enters root place position (name :: rest)

/-- A component that leads from outside to where nothing comes to look inside does not either. -/
theorem not_enters_cons {root : Node} {place : List String} {position after : Position}
    (hout : ¬ place <:+ position.place) {name : String} {rest more : List String}
    (hstep : step root position name = .ok (after, more))
    (hrest : ¬ Enters root place after (more ++ rest)) :
    ¬ Enters root place position (name :: rest) := by
  intro h
  cases h with
  | inside hin => exact hout hin.1
  | looks hplace hname => exact hout (hplace ▸ List.suffix_refl _)
  | later hstep' henters =>
    rw [hstep] at hstep'
    cases hstep'
    exact hrest henters

/-- Without a component nothing is looked for. -/
theorem not_enters_nil {root : Node} {place : List String} {position : Position}
    (hpos : ¬ position.Within place) : ¬ Enters root place position [] := by
  intro h
  cases h with
  | inside hin => exact hpos hin

section Follow

variable {place : List String} {root other : Node}

/-- **What never looks inside the place is followed alike in both trees**, and does not end
inside. -/
theorem follow_eq_of_not_enters (h : Node.DifferAt place root other) {position : Position}
    {steps : List String} (hout : ¬ Enters root place position steps) :
    follow root position steps = follow other position steps
      ∧ ∀ last, follow root position steps = .ok last → ¬ last.Within place := by
  have hstep {position : Position} {name : String} {rest : List String}
      (hout : ¬ Enters root place position (name :: rest)) :
      step root position name = step other position name := by
    have hpos : ¬ position.Within place := fun hin => hout (.inside hin)
    by_cases hin : place <:+ position.place
    · refine step_eq_of_dots h hpos ?_
      by_contra hname
      refine hout (.looks ?_ (not_or.1 hname))
      by_contra hne
      exact hpos ⟨hin, hne⟩
    · exact step_eq_of_outside h hin name
  fun_induction follow root position steps with
  | case1 position =>
    refine ⟨(follow_nil other position).symm, fun last hlast hin => hout (.inside ?_)⟩
    rwa [Except.ok.inj hlast]
  | case2 position name rest fault hfault =>
    rw [follow_cons, ← hstep hout, hfault]
    refine ⟨rfl, fun last hlast => ?_⟩
    cases hlast
  | case3 position name rest after more hafter ih =>
    rw [follow_cons, ← hstep hout, hafter]
    exact ih fun henters => hout (.later hafter henters)

/-- **Where a file was replaced every path is followed alike.** -/
theorem follow_eq_of_file (h : Node.DifferAt place root other) {bytes : List UInt8}
    (hfile : root.at? place.reverse = some (.file bytes)) (position : Position)
    (steps : List String) : follow root position steps = follow other position steps :=
  follow_congr (step_eq_of_file h hfile) position steps

end Follow

/-! ## Links -/

/-- More links than are left at a position are left nowhere behind it. -/
theorem links_le_of_follow {root : Node} {position last : Position} {steps : List String}
    (h : follow root position steps = .ok last) : last.links ≤ position.links := by
  fun_induction follow root position steps with
  | case1 position => exact Except.ok.inj h ▸ Nat.le_refl _
  | case2 position name rest fault hstep => cases h
  | case3 position name rest after more hstep ih =>
    have := ih h
    rcases step_progress hstep with hlinks | ⟨hlinks, -⟩ <;> omega

/-- With more links to spare a name leads to the same place. -/
theorem stepInto_of_links_le {entries : List (String × Node)} {names : List String}
    {links limit : Nat} (hle : links ≤ limit) {name : String} {after : Position}
    {more : List String} (h : stepInto entries ⟨names, links⟩ name = .ok (after, more)) :
    ∃ links', after.links ≤ links'
      ∧ stepInto entries ⟨names, limit⟩ name = .ok (⟨after.place, links'⟩, more) := by
  rw [stepInto] at h ⊢
  split at h
  · cases h
  · cases links with
    | zero => cases h
    | succ links =>
      cases limit with
      | zero => cases hle
      | succ limit =>
        cases h
        exact ⟨limit, Nat.le_of_succ_le_succ hle, rfl⟩
  · cases h
    exact ⟨limit, hle, rfl⟩

/-- With more links to spare a component leads to the same place. -/
theorem step_of_links_le {root : Node} {names : List String} {links limit : Nat}
    (hle : links ≤ limit) {name : String} {after : Position} {more : List String}
    (h : step root ⟨names, links⟩ name = .ok (after, more)) :
    ∃ links', after.links ≤ links'
      ∧ step root ⟨names, limit⟩ name = .ok (⟨after.place, links'⟩, more) := by
  have hnode : Position.node? root ⟨names, limit⟩ = Position.node? root ⟨names, links⟩ := rfl
  rw [step] at h
  rw [step, hnode]
  split at h
  · split at h
    · cases h
      exact ⟨limit, hle, if_pos (by assumption)⟩
    · rw [if_neg (by assumption)]
      split at h
      · cases h
        exact ⟨limit, hle, if_pos (by assumption)⟩
      · rw [if_neg (by assumption)]
        split at h
        · cases h
        · rw [if_neg (by assumption)]
          exact stepInto_of_links_le hle h
  · cases h

/-- What comes to look inside a place does so with more links to spare as well. -/
theorem Enters.mono {root : Node} {place names : List String} {links limit : Nat}
    {steps : List String} (h : Enters root place ⟨names, links⟩ steps) (hle : links ≤ limit) :
    Enters root place ⟨names, limit⟩ steps := by
  generalize hposition : Position.mk names links = position at h
  induction h generalizing names links limit with
  | inside h => subst hposition; exact .inside h
  | looks h hname => subst hposition; exact .looks h hname
  | @later position after name rest more hstep henters ih =>
    subst hposition
    obtain ⟨links', hlinks, hstep'⟩ := step_of_links_le hle hstep
    exact .later hstep' (ih hlinks rfl)

/-- **No link outside a place leads inside**, not even on the way to where it ends. -/
def NoLinkInto (root : Node) (place : List String) : Prop :=
  ∀ (outer : List String) (name target : String), ¬ place <:+ outer →
    Position.node? root ⟨name :: outer, maxLinks⟩ = some (.link target) →
    ¬ Enters root place ⟨outer, maxLinks⟩ [name]

/-- Whether links lead inside is seen from the links that there are. -/
theorem noLinkInto_of_linkPlaces {root : Node} {place : List String}
    (h : ∀ outer name, (name :: outer).reverse ∈ root.linkPlaces → ¬ place <:+ outer →
      ¬ Enters root place ⟨outer, maxLinks⟩ [name]) : NoLinkInto root place :=
  fun outer name _ hout hlink => h outer name (Node.mem_linkPlaces hlink) hout

/-- From outside, a component that is no link leads to a position that is not inside, and nothing
more is to be followed from there. -/
theorem step_cases_of_outside {root : Node} {place : List String} {position after : Position}
    (hout : ¬ place <:+ position.place) {name : String} {more : List String}
    (h : step root position name = .ok (after, more)) :
    (more = [] ∧ ¬ after.Within place)
      ∨ ∃ target, Position.node? root ⟨name :: position.place, position.links⟩
        = some (.link target) := by
  rw [step] at h
  split at h
  · rename_i entries hhere
    split at h
    · cases h
      exact .inl ⟨rfl, fun hin => hout hin.1⟩
    · split at h
      · cases h
        exact .inl ⟨rfl, fun hin => hout (hin.1.trans (List.tail_suffix _))⟩
      · split at h
        · cases h
        · rw [stepInto] at h
          split at h
          · cases h
          · rename_i target hfind
            exact .inr ⟨target, (Position.node?_cons hhere name).trans hfind⟩
          · cases h
            exact .inl ⟨rfl, Position.not_within_cons hout name position.links⟩
  · cases h

/-- **Where no link leads inside, no single name does** from outside. -/
theorem NoLinkInto.not_enters {root : Node} {place : List String} (h : NoLinkInto root place)
    {position : Position} (hout : ¬ place <:+ position.place) (hlinks : position.links ≤ maxLinks)
    (name : String) : ¬ Enters root place position [name] := by
  intro henters
  cases henters with
  | inside hin => exact hout hin.1
  | looks hplace hname => exact hout (hplace ▸ List.suffix_refl _)
  | @later _ after _ _ more hstep henters =>
    rcases step_cases_of_outside hout hstep with ⟨rfl, hafter⟩ | ⟨target, htarget⟩
    · cases henters with
      | inside hin => exact hafter hin
    · exact h position.place name target hout htarget ((Enters.later hstep henters).mono hlinks)

/-! ## Worlds -/

/-- **Two worlds that differ only at one place.** -/
structure DifferAt (place : List String) (world other : World) : Prop where
  /-- The trees differ in nothing else. -/
  replaced : Node.ReplacedAt place.reverse world.root other.root
  /-- Both start from the same place. -/
  start : world.start = other.start

theorem DifferAt.node {place : List String} {world other : World}
    (h : DifferAt place world other) : Node.DifferAt place world.root other.root :=
  ⟨h.replaced, world.distinct, other.distinct⟩

/-- The position from which a path is followed. -/
def origin (world : World) (path : String) : Position :=
  ⟨if Path.isAbsolute path then [] else world.start.reverse, maxLinks⟩

/-- **A path leads inside a place**, if only on the way to where it ends. -/
def LeadsInto (world : World) (place : List String) (path : String) : Prop :=
  Enters world.root place (world.origin path) (Path.steps path)

theorem links_le_of_reach {world : World} {path : String} {position : Position}
    (h : world.reach path = .ok position) : position.links ≤ maxLinks := by
  rw [reach] at h
  split at h
  · cases h
  · split at h
    · cases h
    · split at h
      · cases h
      · exact links_le_of_follow h

section Reach

variable {place : List String} {world other : World}

/-- **A path that does not lead inside ends at the same place in both worlds**, which is not
inside. -/
theorem reach_eq_of_not_leadsInto (h : DifferAt place world other) {path : String}
    (hout : ¬ world.LeadsInto place path) : world.reach path = other.reach path
      ∧ ∀ position, world.reach path = .ok position → ¬ position.Within place := by
  obtain ⟨hfollow, hlast⟩ := follow_eq_of_not_enters h.node hout
  rw [reach, reach]
  split
  · exact ⟨rfl, fun position hposition => by cases hposition⟩
  · split
    · exact ⟨rfl, fun position hposition => by cases hposition⟩
    · split
      · exact ⟨rfl, fun position hposition => by cases hposition⟩
      · refine ⟨?_, hlast⟩
        rw [origin, h.start] at hfollow
        rw [h.start]
        exact hfollow

/-- A file that is reached in either world has the same bytes as long as what is found there is the
same, or a directory in both. -/
theorem readText_eq_of_reach {path : String} (hreach : world.reach path = other.reach path)
    (hnode : ∀ position, world.reach path = .ok position →
      position.node? world.root = position.node? other.root
        ∨ ∃ entries others, position.node? world.root = some (.directory entries)
          ∧ position.node? other.root = some (.directory others)) :
    world.readText path = other.readText path := by
  rw [readText, readText, readBytes, readBytes, node, node, ← hreach]
  cases hposition : world.reach path with
  | error fault => rfl
  | ok position =>
    dsimp only [bind, Except.bind]
    rcases hnode position hposition with heq | ⟨entries, others, hentries, hothers⟩
    · rw [heq]
    · rw [hentries, hothers]
      rfl

end Reach

end World

/-- **Where a directory was replaced there are the same things** anywhere but strictly inside,
except for what directories hold. -/
theorem Node.DifferAt.node?_of_directory {place : List String} {root other : Node}
    (h : DifferAt place root other) {held : List (String × Node)}
    (hdirectory : root.at? place.reverse = some (.directory held)) {position : Position}
    (hpos : ¬ position.Within place) : position.node? root = position.node? other
      ∨ ∃ entries others, position.node? root = some (.directory entries)
        ∧ position.node? other = some (.directory others) := by
  by_cases hin : place <:+ position.place
  · have hplace : position.place = place := by
      by_contra hne
      exact hpos ⟨hin, hne⟩
    obtain ⟨replaced, new, hreplaced, hnew, halike⟩ := h.replaced.at?_self h.distinct h.distinct'
    obtain rfl := Option.some.inj (hreplaced.symm.trans hdirectory)
    cases halike with
    | directory _ others =>
      rw [← hplace] at hdirectory hnew
      exact .inr ⟨held, others, hdirectory, hnew⟩
  · exact h.node?_outside hin

/-- **Where a file was replaced there are the same things** anywhere else, except for what
directories hold. -/
theorem Node.DifferAt.node?_of_file {place : List String} {root other : Node}
    (h : DifferAt place root other) {bytes : List UInt8}
    (hfile : root.at? place.reverse = some (.file bytes)) {position : Position}
    (hpos : position.place ≠ place) : position.node? root = position.node? other
      ∨ ∃ entries others, position.node? root = some (.directory entries)
        ∧ position.node? other = some (.directory others) := by
  by_cases hin : place <:+ position.place
  · obtain ⟨replaced, new, hreplaced, hnew, halike⟩ := h.replaced.at?_self h.distinct h.distinct'
    obtain rfl := Option.some.inj (hreplaced.symm.trans hfile)
    cases halike with
    | file _ others =>
      rw [World.node?_of_suffix_file hfile hin, World.node?_of_suffix_file hnew hin, if_neg hpos,
        if_neg hpos]
      exact .inl rfl
  · exact h.node?_outside hin

/-- **Where a file was replaced what stands anywhere is of one kind**, as nothing is inside. -/
theorem Node.DifferAt.node?_alike_of_file {place : List String} {root other : Node}
    (h : DifferAt place root other) {bytes : List UInt8}
    (hfile : root.at? place.reverse = some (.file bytes)) (position : Position) :
    Option.Rel Alike (position.node? root) (position.node? other) := by
  by_cases hplace : position.place = place
  · exact h.node?_alike fun hin => hin.2 hplace
  · rcases h.node?_of_file hfile hplace with heq | ⟨entries, others, hentries, hothers⟩
    · rw [heq]
      cases position.node? other with
      | none => exact .none
      | some node => exact .some (.refl node)
    · rw [hentries, hothers]
      exact .some (.directory entries others)

end Rulebook.Files
