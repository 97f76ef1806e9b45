import Rulebook.Proofs.CheckOutcome
import Mathlib.Data.List.Flatten
import Mathlib.Data.List.NodupEquivFin

/-!
# What the check of the groups finds

A group has **items**: its name, and behind it its tags. An item **occurs** wherever a group of the
catalog has it, and occurrences are ordered as the groups are by their keys and as the items are
within their group. The first occurrence of an item owns it, and every other one is a
**repetition** of the first. All this is said without a check (`Occurrence.Of`, `Repetition.Of`).

The check goes through the occurrences one by one and keeps owners. What it knows of an item is its
first occurrence before (`Owners.Know`): an owner is added with the first occurrence and never
replaced. So each step reports the repetition at hand or nothing, and the whole run reports every
repetition once, in order, and nothing else (`groups_exact`).

An owner is not asked which group it is in. A tag is therefore reported when two groups list it, and
just as well when one group lists it twice (`tagReported_exact`).
-/

namespace Rulebook.Check

variable {catalog : GroupCatalog}

/-! ## Items and where they occur -/

/-- **What a group may repeat**: its name or one of its tags. -/
inductive Item where
  /-- The name of a group. -/
  | name (text : String)
  /-- One of its tags. -/
  | tag (text : String)
deriving DecidableEq, Repr

/-- The items of a group in the order in which they are checked. -/
def itemsOf (group : Group) : List Item := .name group.name :: group.tags.map .tag

/-- **An item in its place.** -/
structure Occurrence where
  /-- The key of the group. -/
  key : String
  /-- The group that has the item. -/
  group : Group
  /-- How many items of the group stand before. -/
  position : Nat
  /-- The item. -/
  item : Item
deriving DecidableEq, Repr

namespace Occurrence

/-- **What occurs in a catalog.** -/
structure Of (catalog : GroupCatalog) (occurrence : Occurrence) : Prop where
  /-- The group is in the catalog under its key. -/
  group : catalog.get? occurrence.key = some occurrence.group
  /-- It has the item at the position. -/
  item : (itemsOf occurrence.group)[occurrence.position]? = some occurrence.item

/-- **The order of occurrences**: groups by their keys, and the items of one group by position. -/
def Before (occurrence other : Occurrence) : Prop :=
  occurrence.key < other.key
    ∨ occurrence.key = other.key ∧ occurrence.position < other.position

theorem Before.irrefl (occurrence : Occurrence) : ¬ occurrence.Before occurrence
  | .inl h => String.lt_irrefl _ h
  | .inr h => Nat.lt_irrefl _ h.2

theorem Before.trans {occurrence other last : Occurrence} (h : occurrence.Before other)
    (h' : other.Before last) : occurrence.Before last := by
  rcases h with h | ⟨heq, h⟩
  · rcases h' with h' | ⟨heq', -⟩
    · exact .inl (String.lt_trans h h')
    · exact .inl (heq' ▸ h)
  · rcases h' with h' | ⟨heq', h'⟩
    · exact .inl (heq ▸ h')
    · exact .inr ⟨heq.trans heq', Nat.lt_trans h h'⟩

theorem Before.asymm {occurrence other : Occurrence} (h : occurrence.Before other) :
    ¬ other.Before occurrence := fun h' => (h.trans h').irrefl

end Occurrence

/-- **An item that occurs again.** -/
structure Repetition where
  /-- Where it occurs again. -/
  here : Occurrence
  /-- Where it occurs first. -/
  first : Occurrence
deriving DecidableEq, Repr

namespace Repetition

/-- **The repetitions in a catalog.** -/
structure Of (catalog : GroupCatalog) (repetition : Repetition) : Prop where
  /-- The item occurs here. -/
  here : repetition.here.Of catalog
  /-- It occurs there as well. -/
  first : repetition.first.Of catalog
  /-- Both are the same item. -/
  item : repetition.first.item = repetition.here.item
  /-- It occurs there before it does here. -/
  before : repetition.first.Before repetition.here
  /-- It occurs nowhere before that. -/
  least : ∀ earlier : Occurrence, earlier.Of catalog → earlier.Before repetition.first →
    earlier.item ≠ repetition.here.item

/-- **What is reported of a repetition.** Groups are shown by their keys where their names are the
same, and by their names otherwise. -/
def finding (repetition : Repetition) : Finding :=
  match repetition.here.item with
  | .name name => ⟨.warning, "group '" ++ repetition.here.key ++ "'",
      "multiple groups with the name '" ++ name ++ "' (first with key '"
        ++ repetition.first.key ++ "')"⟩
  | .tag tag => ⟨.warning, "group '" ++ repetition.here.group.name ++ "'",
      "tag '" ++ tag ++ "' is already defined in group '"
        ++ repetition.first.group.name ++ "'"⟩

theorem severity_finding (repetition : Repetition) : repetition.finding.severity = .warning := by
  unfold finding
  split <;> rfl

end Repetition

/-! ## Listing the repetitions -/

/-- What occurs in a group, in order. -/
def occurrencesOf (entry : String × Group) : List Occurrence :=
  (itemsOf entry.2).zipIdx.map fun item => ⟨entry.1, entry.2, item.2, item.1⟩

/-- **What occurs in a catalog, in order.** -/
def occurrences (catalog : GroupCatalog) : List Occurrence :=
  catalog.entries.flatMap occurrencesOf

/-- The first occurrence of an item among those of a list. -/
def owner? (before : List Occurrence) (item : Item) : Option Occurrence :=
  before.find? (·.item = item)

/-- The repetition that an occurrence is behind those of a list, if it is one. -/
def repetition? (before : List Occurrence) (here : Occurrence) : Option Repetition :=
  (owner? before here.item).map (.mk here)

/-- The repetitions in a list of occurrences behind another one. -/
def repetitionsFrom (before : List Occurrence) : List Occurrence → List Repetition
  | [] => []
  | here :: rest => (repetition? before here).toList ++ repetitionsFrom (before ++ [here]) rest

/-- **The repetitions in a catalog, in order.** -/
def repetitions (catalog : GroupCatalog) : List Repetition :=
  repetitionsFrom [] (occurrences catalog)

/-- A list of occurrences may be gone through in two parts. -/
theorem repetitionsFrom_append (before list rest : List Occurrence) :
    repetitionsFrom before (list ++ rest)
      = repetitionsFrom before list ++ repetitionsFrom (before ++ list) rest := by
  induction list generalizing before with
  | nil => simp [repetitionsFrom]
  | cons here list ih => simp [repetitionsFrom, ih]

/-- One more occurrence owns its item unless it is owned already. -/
theorem owner?_concat (before : List Occurrence) (here : Occurrence) (item : Item) :
    owner? (before ++ [here]) item
      = (owner? before item).or (if here.item = item then some here else none) := by
  unfold owner?
  rw [List.find?_append, List.find?_singleton]
  simp only [decide_eq_true_eq]

/-! ### The check reports them -/

section Keeps

variable {kind : String → Item} {label : Occurrence → String} {table : Table String}
  {before : List Occurrence} {here first : Occurrence}

/-- **A table keeps the owners of items of one kind**, each by its label. -/
def Keeps (kind : String → Item) (label : Occurrence → String) (table : Table String)
    (before : List Occurrence) : Prop :=
  ∀ text, table.get? text = (owner? before (kind text)).map label

/-- An item of another kind changes nothing. -/
theorem Keeps.of_other (h : Keeps kind label table before)
    (hother : ∀ text, here.item ≠ kind text) : Keeps kind label table (before ++ [here]) := by
  intro text
  rw [owner?_concat, if_neg (hother text), Option.or_none]
  exact h text

/-- An item that has an owner keeps it. -/
theorem Keeps.of_owned (h : Keeps kind label table before)
    (howner : owner? before here.item = some first) :
    Keeps kind label table (before ++ [here]) := by
  intro text
  rw [owner?_concat, h text]
  by_cases hitem : here.item = kind text
  · rw [← hitem, howner, Option.some_or]
  · rw [if_neg hitem, Option.or_none]

/-- An item that has none gets one. -/
theorem Keeps.insert {text : String} (h : Keeps kind label table before)
    (hkind : Function.Injective kind) (hitem : here.item = kind text)
    (howner : owner? before here.item = none) :
    Keeps kind label (table.insert text (label here)) (before ++ [here]) := by
  intro other
  rw [owner?_concat, Table.get?_insert, h other, hitem]
  by_cases htext : text = other
  · rw [if_pos htext, ← htext, ← hitem, howner, if_pos rfl]
    rfl
  · rw [if_neg htext, if_neg fun heq => htext (hkind heq), Option.or_none]

end Keeps

/-- **The owners that are kept are the first occurrences so far**: of names by the keys of their
groups, of tags by the names. -/
structure Owners.Know (owners : Owners) (before : List Occurrence) : Prop where
  /-- The owners of names. -/
  names : Keeps .name (·.key) owners.names before
  /-- The owners of tags. -/
  tags : Keeps .tag (·.group.name) owners.tags before

variable {owners : Owners} {before : List Occurrence}

/-- Nothing is known at the start. -/
theorem Owners.know_nil : Owners.Know {} [] := ⟨fun _ => rfl, fun _ => rfl⟩

/-- The check of a name reports the repetition that it is. -/
theorem Owners.Know.checkName (h : owners.Know before) (key : String) (group : Group) :
    let here : Occurrence := ⟨key, group, 0, .name group.name⟩
    (checkName owners key group).1.Know (before ++ [here])
      ∧ (checkName owners key group).2
        = (repetition? before here).toList.map Repetition.finding := by
  intro here
  have htags : Keeps .tag (·.group.name) owners.tags (before ++ [here]) :=
    h.tags.of_other fun _ heq => nomatch heq
  have hknown := h.names group.name
  unfold Check.checkName repetition?
  cases howner : owner? before here.item with
  | some first =>
    rw [show Item.name group.name = here.item from rfl, howner] at hknown
    rw [hknown]
    exact ⟨⟨h.names.of_owned howner, htags⟩, rfl⟩
  | none =>
    rw [show Item.name group.name = here.item from rfl, howner] at hknown
    rw [hknown]
    exact ⟨⟨h.names.insert (fun _ _ => Item.name.inj) rfl howner, htags⟩, rfl⟩

/-- The check of a tag reports the repetition that it is. -/
theorem Owners.Know.checkTag (h : owners.Know before) (key : String) (group : Group)
    (position : Nat) (tag : String) :
    let here : Occurrence := ⟨key, group, position, .tag tag⟩
    (checkTag group.name owners tag).1.Know (before ++ [here])
      ∧ (checkTag group.name owners tag).2
        = (repetition? before here).toList.map Repetition.finding := by
  intro here
  have hnames : Keeps .name (·.key) owners.names (before ++ [here]) :=
    h.names.of_other fun _ heq => nomatch heq
  have hknown := h.tags tag
  unfold Check.checkTag repetition?
  cases howner : owner? before here.item with
  | some first =>
    rw [show Item.tag tag = here.item from rfl, howner] at hknown
    rw [hknown]
    exact ⟨⟨hnames, h.tags.of_owned howner⟩, rfl⟩
  | none =>
    rw [show Item.tag tag = here.item from rfl, howner] at hknown
    rw [hknown]
    exact ⟨⟨hnames, h.tags.insert (fun _ _ => Item.tag.inj) rfl howner⟩, rfl⟩

/-- Tags are checked one after the other. -/
theorem checkTags_cons (groupName tag : String) (owners : Owners) (rest : List String) :
    checkTags groupName owners (tag :: rest)
      = ((checkTags groupName (checkTag groupName owners tag).1 rest).1,
          (checkTag groupName owners tag).2
            ++ (checkTags groupName (checkTag groupName owners tag).1 rest).2) := rfl

/-- The check of tags reports the repetitions among them. -/
theorem Owners.Know.checkTags (h : owners.Know before) (key : String) (group : Group)
    (start : Nat) (tags : List String) :
    let list : List Occurrence :=
      (tags.zipIdx start).map fun tag => ⟨key, group, tag.2, .tag tag.1⟩
    (checkTags group.name owners tags).1.Know (before ++ list)
      ∧ (checkTags group.name owners tags).2
        = (repetitionsFrom before list).map Repetition.finding := by
  induction tags generalizing owners before start with
  | nil => exact ⟨by simpa [Check.checkTags] using h, rfl⟩
  | cons tag rest ih =>
    obtain ⟨hone, hfound⟩ := h.checkTag key group start tag
    obtain ⟨hrest, hmore⟩ := ih hone (start + 1)
    rw [List.append_assoc] at hrest
    rw [checkTags_cons]
    refine ⟨hrest, ?_⟩
    dsimp only
    rw [hfound, hmore, ← List.map_append]
    rfl

/-- Of a group the name is checked and then the tags. -/
theorem checkGroups_cons (owners : Owners) (key : String) (group : Group)
    (rest : List (String × Group)) :
    let named := checkName owners key group
    let tagged := checkTags group.name named.1 group.tags
    checkGroups owners ((key, group) :: rest) = named.2 ++ tagged.2 ++ checkGroups tagged.1 rest :=
  rfl

/-- What occurs in a group are its name and its tags. -/
theorem occurrencesOf_eq (key : String) (group : Group) :
    occurrencesOf (key, group) = ⟨key, group, 0, .name group.name⟩ ::
      (group.tags.zipIdx 1).map fun tag => ⟨key, group, tag.2, .tag tag.1⟩ := by
  rw [occurrencesOf, itemsOf, List.zipIdx_cons, List.zipIdx_map, List.map_cons, List.map_map]
  rfl

/-- **The check of groups reports the repetitions among them.** -/
theorem Owners.Know.checkGroups (h : owners.Know before) (entries : List (String × Group)) :
    checkGroups owners entries
      = (repetitionsFrom before (entries.flatMap occurrencesOf)).map Repetition.finding := by
  induction entries generalizing owners before with
  | nil => rfl
  | cons entry rest ih =>
    obtain ⟨key, group⟩ := entry
    obtain ⟨hname, hfound⟩ := h.checkName key group
    obtain ⟨htags, hmore⟩ := hname.checkTags key group 1 group.tags
    rw [List.append_assoc] at htags
    rw [checkGroups_cons, hfound, hmore, ih htags, ← List.map_append, ← List.map_append,
      List.flatMap_cons, repetitionsFrom_append, occurrencesOf_eq]
    rfl

/-- The check reports the repetitions in a catalog. -/
theorem groups_eq (catalog : GroupCatalog) :
    groups catalog = (repetitions catalog).map Repetition.finding :=
  Owners.know_nil.checkGroups catalog.entries

/-! ### They are the repetitions of the catalog -/

theorem mem_occurrencesOf_iff {entry : String × Group} {occurrence : Occurrence} :
    occurrence ∈ occurrencesOf entry ↔ (occurrence.key, occurrence.group) = entry
      ∧ (itemsOf occurrence.group)[occurrence.position]? = some occurrence.item := by
  rw [occurrencesOf, List.mem_map]
  constructor
  · rintro ⟨item, hitem, rfl⟩
    exact ⟨rfl, List.mem_zipIdx_iff_getElem?.1 hitem⟩
  · rintro ⟨rfl, hitem⟩
    exact ⟨(occurrence.item, occurrence.position), List.mem_zipIdx_iff_getElem?.2 hitem, rfl⟩

/-- **What occurs in a catalog is listed.** -/
theorem mem_occurrences_iff {occurrence : Occurrence} :
    occurrence ∈ occurrences catalog ↔ occurrence.Of catalog := by
  simp only [occurrences, List.mem_flatMap, mem_occurrencesOf_iff]
  constructor
  · rintro ⟨_, hentry, rfl, hitem⟩
    exact ⟨(catalog.get?_eq_some_iff _ _).2 hentry, hitem⟩
  · rintro ⟨hgroup, hitem⟩
    exact ⟨_, (catalog.get?_eq_some_iff _ _).1 hgroup, rfl, hitem⟩

/-- **It is listed in order.** -/
theorem pairwise_occurrences (catalog : GroupCatalog) :
    (occurrences catalog).Pairwise Occurrence.Before := by
  refine List.pairwise_flatMap.2 ⟨fun entry _ => ?_, catalog.ascending.imp ?_⟩
  · have hpositions : ((occurrencesOf entry).map (·.position)).Pairwise (· < ·) := by
      rw [occurrencesOf, List.map_map]
      show ((itemsOf entry.2).zipIdx.map Prod.snd).Pairwise _
      rw [List.zipIdx_map_snd]
      exact List.pairwise_lt_range'
    refine (List.pairwise_map.1 hpositions).imp_of_mem ?_
    intro occurrence other hmem hother hlt
    obtain ⟨rfl, -⟩ := mem_occurrencesOf_iff.1 hmem
    obtain ⟨heq, -⟩ := mem_occurrencesOf_iff.1 hother
    exact .inr ⟨(congrArg Prod.fst heq).symm, hlt⟩
  · intro entry next hlt occurrence hmem other hother
    obtain ⟨rfl, -⟩ := mem_occurrencesOf_iff.1 hmem
    obtain ⟨rfl, -⟩ := mem_occurrencesOf_iff.1 hother
    exact .inl hlt

section Ordered

variable {list left right : List Occurrence} {here occurrence : Occurrence}

/-- Of occurrences in order, those before one of them are on its left. -/
theorem mem_left_iff (h : (left ++ here :: right).Pairwise Occurrence.Before) :
    occurrence ∈ left ↔ occurrence ∈ left ++ here :: right ∧ occurrence.Before here := by
  obtain ⟨-, hright, hcross⟩ := List.pairwise_append.1 h
  constructor
  · intro hmem
    exact ⟨List.mem_append_left _ hmem, hcross _ hmem here (List.mem_cons_self ..)⟩
  · rintro ⟨hmem, hbefore⟩
    rcases List.mem_append.1 hmem with hmem | hmem
    · exact hmem
    rcases List.mem_cons.1 hmem with rfl | hmem
    · exact absurd hbefore (Occurrence.Before.irrefl _)
    · exact absurd hbefore ((List.pairwise_cons.1 hright).1 _ hmem).asymm

/-- The owner of an item is where it occurs and before all other places. -/
theorem owner?_eq_some_iff (h : list.Pairwise Occurrence.Before) {item : Item} :
    owner? list item = some here ↔ here ∈ list ∧ here.item = item
      ∧ ∀ earlier ∈ list, earlier.Before here → earlier.item ≠ item := by
  rw [owner?, List.find?_eq_some_iff_append, decide_eq_true_eq]
  constructor
  · rintro ⟨hitem, left, right, rfl, hleft⟩
    refine ⟨List.mem_append_right _ (List.mem_cons_self ..), hitem, fun earlier hmem hbefore => ?_⟩
    simpa using hleft earlier ((mem_left_iff h).2 ⟨hmem, hbefore⟩)
  · rintro ⟨hmem, hitem, hleast⟩
    obtain ⟨left, right, rfl⟩ := List.append_of_mem hmem
    refine ⟨hitem, left, right, rfl, fun earlier hearlier => ?_⟩
    obtain ⟨hmem, hbefore⟩ := (mem_left_iff h).1 hearlier
    simpa using hleast earlier hmem hbefore

end Ordered

/-- What is listed as a repetition has its owner on the left. -/
theorem mem_repetitionsFrom_iff {before list : List Occurrence} {repetition : Repetition} :
    repetition ∈ repetitionsFrom before list
      ↔ ∃ left right, list = left ++ repetition.here :: right
        ∧ owner? (before ++ left) repetition.here.item = some repetition.first := by
  induction list generalizing before with
  | nil => simp [repetitionsFrom]
  | cons here rest ih =>
    rw [repetitionsFrom, List.mem_append, ih, Option.mem_toList, repetition?,
      Option.map_eq_some_iff]
    constructor
    · rintro (⟨first, howner, rfl⟩ | ⟨left, right, rfl, howner⟩)
      · exact ⟨[], rest, rfl, by rwa [List.append_nil]⟩
      · exact ⟨here :: left, right, rfl, by rwa [List.append_cons]⟩
    · rintro ⟨left, right, hlist, howner⟩
      cases left with
      | nil =>
        obtain ⟨rfl, -⟩ := List.cons.inj hlist
        exact .inl ⟨repetition.first, by rwa [List.append_nil] at howner, rfl⟩
      | cons _ left =>
        obtain ⟨rfl, hrest⟩ := List.cons.inj hlist
        exact .inr ⟨left, right, hrest, by rwa [List.append_cons] at howner⟩

/-- **The repetitions of a catalog are listed.** -/
theorem mem_repetitions_iff {repetition : Repetition} :
    repetition ∈ repetitions catalog ↔ repetition.Of catalog := by
  have hordered := pairwise_occurrences catalog
  rw [repetitions, mem_repetitionsFrom_iff]
  simp only [List.nil_append]
  constructor
  · rintro ⟨left, right, hlist, howner⟩
    rw [hlist] at hordered
    obtain ⟨hleft, -, -⟩ := List.pairwise_append.1 hordered
    obtain ⟨hfirst, hitem, hleast⟩ := (owner?_eq_some_iff hleft).1 howner
    obtain ⟨hmem, hbefore⟩ := (mem_left_iff hordered).1 hfirst
    have hhere : repetition.here ∈ occurrences catalog := by
      rw [hlist]
      exact List.mem_append_right _ (List.mem_cons_self ..)
    refine ⟨mem_occurrences_iff.1 hhere, mem_occurrences_iff.1 (hlist ▸ hmem), hitem, hbefore, ?_⟩
    intro earlier hearlier hlt
    refine hleast earlier ((mem_left_iff hordered).2 ⟨?_, hlt.trans hbefore⟩) hlt
    exact hlist ▸ mem_occurrences_iff.2 hearlier
  · intro h
    obtain ⟨left, right, hlist⟩ := List.append_of_mem (mem_occurrences_iff.2 h.here)
    rw [hlist] at hordered
    obtain ⟨hleft, -, -⟩ := List.pairwise_append.1 hordered
    refine ⟨left, right, hlist, (owner?_eq_some_iff hleft).2 ⟨?_, h.item, ?_⟩⟩
    · exact (mem_left_iff hordered).2 ⟨hlist ▸ mem_occurrences_iff.2 h.first, h.before⟩
    · intro earlier hearlier hlt
      refine h.least earlier (mem_occurrences_iff.1 ?_) hlt
      exact hlist ▸ List.mem_append_left _ hearlier

/-- **They are listed in order.** -/
theorem sublist_repetitionsFrom (before list : List Occurrence) :
    ((repetitionsFrom before list).map (·.here)).Sublist list := by
  induction list generalizing before with
  | nil => exact .slnil
  | cons here rest ih =>
    rw [repetitionsFrom, repetition?]
    cases owner? before here.item with
    | none => exact (ih _).cons here
    | some first => exact (ih _).cons_cons here

/-- **Whatever has occurred before is listed**, and nothing else. -/
theorem exists_repetition_iff {here : Occurrence} :
    (∃ repetition ∈ repetitions catalog, repetition.here = here) ↔ here.Of catalog
      ∧ ∃ earlier : Occurrence, earlier.Of catalog ∧ earlier.item = here.item
        ∧ earlier.Before here := by
  constructor
  · rintro ⟨repetition, hmem, rfl⟩
    have h := mem_repetitions_iff.1 hmem
    exact ⟨h.here, repetition.first, h.first, h.item, h.before⟩
  · rintro ⟨hhere, earlier, hearlier, hitem, hbefore⟩
    have hordered := pairwise_occurrences catalog
    obtain ⟨left, right, hlist⟩ := List.append_of_mem (mem_occurrences_iff.2 hhere)
    rw [hlist] at hordered
    have hleft : earlier ∈ left :=
      (mem_left_iff hordered).2 ⟨hlist ▸ mem_occurrences_iff.2 hearlier, hbefore⟩
    have howner : (owner? left here.item).isSome :=
      List.find?_isSome.2 ⟨earlier, hleft, decide_eq_true hitem⟩
    obtain ⟨first, hfirst⟩ := Option.isSome_iff_exists.1 howner
    exact ⟨⟨here, first⟩, mem_repetitionsFrom_iff.2 ⟨left, right, hlist, hfirst⟩, rfl⟩

/-! ## Counting them -/

/-- An item has an owner when it has occurred. -/
theorem owner?_eq_none_iff {before : List Occurrence} {item : Item} :
    owner? before item = none ↔ item ∉ (before.map (·.item)).toFinset := by
  simp [owner?, List.find?_eq_none]

/-- **Every occurrence is a repetition or brings a new item.** -/
theorem length_repetitionsFrom (before list : List Occurrence) :
    (repetitionsFrom before list).length
        + ((list.map (·.item)).toFinset \ (before.map (·.item)).toFinset).card
      = list.length := by
  induction list generalizing before with
  | nil => simp [repetitionsFrom]
  | cons here rest ih =>
    have hrest := ih (before ++ [here])
    have hbefore : ((before ++ [here]).map (·.item)).toFinset
        = insert here.item (before.map (·.item)).toFinset := by
      simp [Finset.union_comm]
    rw [hbefore] at hrest
    rw [repetitionsFrom, repetition?, List.length_append, List.map_cons, List.toFinset_cons,
      List.length_cons]
    cases howner : owner? before here.item with
    | none =>
      have hnew := owner?_eq_none_iff.1 howner
      rw [insert_sdiff_eq hnew, Finset.card_insert_of_notMem (by simp)]
      simp only [Option.map_none, Option.toList_none, List.length_nil]
      omega
    | some first =>
      have hold : here.item ∈ (before.map (·.item)).toFinset := by
        by_contra hnew
        rw [owner?_eq_none_iff.2 hnew] at howner
        cases howner
      rw [Finset.insert_eq_of_mem hold] at hrest
      rw [Finset.insert_sdiff_of_mem _ hold]
      simp only [Option.map_some, Option.toList_some, List.length_singleton]
      omega

/-- The items of a catalog are the names of its groups and their tags. -/
theorem items_perm (catalog : GroupCatalog) :
    ((occurrences catalog).map (·.item)).Perm
      ((catalog.groups.map (·.name)).map .name ++ catalog.tags.map .tag) := by
  have hitems : (occurrences catalog).map (·.item) = catalog.groups.flatMap fun group =>
      [Item.name group.name] ++ group.tags.map .tag := by
    rw [occurrences, List.map_flatMap, GroupCatalog.groups, Table.values, List.flatMap_map]
    refine List.flatMap_congr fun entry _ => ?_
    rw [occurrencesOf, List.map_map]
    show (itemsOf entry.2).zipIdx.map Prod.fst = _
    rw [List.zipIdx_map_fst]
    rfl
  rw [hitems, GroupCatalog.tags, List.map_map, List.map_eq_flatMap, List.map_flatMap]
  exact (List.flatMap_append_perm catalog.groups _ _).symm

/-- Names are no tags, so the different items are the different names and the different tags. -/
theorem card_items (names tags : List String) :
    (names.map Item.name ++ tags.map Item.tag).toFinset.card
      = names.toFinset.card + tags.toFinset.card := by
  have hdisjoint : (names.map Item.name).Disjoint (tags.map Item.tag) := by
    simp [List.disjoint_left]
  rw [List.card_toFinset, hdisjoint.dedup_append, List.length_append,
    List.dedup_map_of_injective fun _ _ => Item.name.inj,
    List.dedup_map_of_injective fun _ _ => Item.tag.inj, List.length_map, List.length_map,
    List.card_toFinset, List.card_toFinset]

/-- **The repetitions are the repeated names and the repeated tags.** -/
theorem length_repetitions (catalog : GroupCatalog) :
    (repetitions catalog).length
      = repeatedTags (catalog.groups.map (·.name)) + repeatedTags catalog.tags := by
  have hlength := length_repetitionsFrom [] (occurrences catalog)
  rw [List.map_nil, List.toFinset_nil, Finset.sdiff_empty,
    List.toFinset_eq_of_perm _ _ (items_perm catalog), card_items] at hlength
  have hitems := (items_perm catalog).length_eq
  rw [List.length_map, List.length_append, List.length_map Item.name,
    List.length_map Item.tag] at hitems
  have hnames := List.toFinset_card_le (catalog.groups.map (·.name))
  have htags := List.toFinset_card_le catalog.tags
  rw [repetitions, repeatedTags, repeatedTags]
  omega

/-! ## The findings -/

/-- **The check of the groups reports every repetition to its owner.** Its findings are those of the
repetitions, which are the occurrences of names and tags that have occurred before, each once and
with the first occurrence of all. All of them are warnings, and there are as many as names and tags
are too many. -/
theorem groups_exact (catalog : GroupCatalog) :
    groups catalog = (repetitions catalog).map Repetition.finding
      ∧ (∀ repetition, repetition ∈ repetitions catalog ↔ repetition.Of catalog)
      ∧ (∀ here, (∃ repetition ∈ repetitions catalog, repetition.here = here) ↔ here.Of catalog
        ∧ ∃ earlier : Occurrence, earlier.Of catalog ∧ earlier.item = here.item
          ∧ earlier.Before here)
      ∧ (repetitions catalog).Pairwise (fun repetition other => repetition.here.Before other.here)
      ∧ (∀ finding ∈ groups catalog, finding.severity = .warning)
      ∧ (groups catalog = []
        ↔ (catalog.groups.map (·.name)).Nodup ∧ catalog.tags.Nodup)
      ∧ (groups catalog).length
        = (catalog.size - (catalog.groups.map (·.name)).toFinset.card)
          + (catalog.tags.length - catalog.tags.toFinset.card) := by
  have hsize : catalog.size = (catalog.groups.map (·.name)).length := by
    simp [Table.size, GroupCatalog.groups, Table.values]
  have hlength : (groups catalog).length
      = repeatedTags (catalog.groups.map (·.name)) + repeatedTags catalog.tags := by
    rw [groups_eq, List.length_map, length_repetitions]
  refine ⟨groups_eq catalog, fun _ => mem_repetitions_iff, fun _ => exists_repetition_iff, ?_, ?_,
    ?_, ?_⟩
  · exact List.pairwise_map.1
      ((pairwise_occurrences catalog).sublist (sublist_repetitionsFrom [] _))
  · intro finding hfinding
    rw [groups_eq] at hfinding
    obtain ⟨repetition, -, rfl⟩ := List.mem_map.1 hfinding
    exact repetition.severity_finding
  · rw [← List.length_eq_zero_iff, hlength, Nat.add_eq_zero_iff, repeatedTags_eq_zero_iff,
      repeatedTags_eq_zero_iff]
  · rw [hlength, hsize]
    rfl

/-- Three groups with one name, two of which list the same tags, one of them twice. -/
def crowdedGroups : GroupCatalog :=
  ((Table.empty.insert "a" { name := "N", tags := ["t", "u"] }).insert "b"
    { name := "N", tags := ["u", "t", "t"] }).insert "c" { name := "N", tags := ["v"] }

/-- Two names are repeated and three tags. What occurs for the third time repeats the first place of
all and not its neighbour. -/
theorem groups_exact_crowdedGroups :
    (groups crowdedGroups).length = 2 + 3
      ∧ Repetition.Of crowdedGroups
        ⟨⟨"b", { name := "N", tags := ["u", "t", "t"] }, 3, .tag "t"⟩,
          "a", { name := "N", tags := ["t", "u"] }, 1, .tag "t"⟩
      ∧ Repetition.Of crowdedGroups
        ⟨⟨"c", { name := "N", tags := ["v"] }, 0, .name "N"⟩,
          "a", { name := "N", tags := ["t", "u"] }, 0, .name "N"⟩ := by
  obtain ⟨-, hmem, -, -, -, -, hlength⟩ := groups_exact crowdedGroups
  exact ⟨hlength.trans (by decide), (hmem _).1 (by decide), (hmem _).1 (by decide)⟩

/-! ## Tags of one group and of several -/

/-- Whether the group with a key lists a tag. -/
def ListsTag (catalog : GroupCatalog) (key tag : String) : Prop :=
  ∃ group, catalog.get? key = some group ∧ tag ∈ group.tags

/-- **Two groups list a tag.** -/
def Shared (catalog : GroupCatalog) (tag : String) : Prop :=
  ∃ key other, key ≠ other ∧ ListsTag catalog key tag ∧ ListsTag catalog other tag

/-- **Some finding is about a tag.** -/
def TagReported (catalog : GroupCatalog) (tag : String) : Prop :=
  ∃ repetition ∈ repetitions catalog, repetition.here.item = .tag tag

/-- The tags of a group are its items behind the name. -/
theorem itemsOf_eq_tag_iff {group : Group} {position : Nat} {tag : String} :
    (itemsOf group)[position]? = some (.tag tag)
      ↔ ∃ index, position = index + 1 ∧ group.tags[index]? = some tag := by
  cases position with
  | zero => simp [itemsOf]
  | succ index => simp [itemsOf]

/-- A tag that occurs at two places is reported. -/
theorem tagReported_of_before {tag : String} {occurrence other : Occurrence}
    (h : occurrence.Of catalog) (hother : other.Of catalog) (hitem : occurrence.item = .tag tag)
    (hitem' : other.item = .tag tag) (hbefore : occurrence.Before other) :
    TagReported catalog tag := by
  obtain ⟨repetition, hmem, rfl⟩ :=
    exists_repetition_iff.2 ⟨hother, occurrence, h, hitem.trans hitem'.symm, hbefore⟩
  exact ⟨repetition, hmem, hitem'⟩

/-- A tag is twice in a list when it is at two positions. -/
theorem two_le_count_iff {tags : List String} {tag : String} : 2 ≤ tags.count tag
    ↔ ∃ position next : Nat, position < next ∧ tags[position]? = some tag
      ∧ tags[next]? = some tag := by
  rw [← List.duplicate_iff_two_le_count, List.duplicate_iff_exists_distinct_get]
  constructor
  · rintro ⟨position, next, hlt, htag, hnext⟩
    refine ⟨position, next, hlt, ?_, ?_⟩
    · rw [htag, List.get_eq_getElem, List.getElem?_eq_getElem]
    · rw [hnext, List.get_eq_getElem, List.getElem?_eq_getElem]
  · rintro ⟨position, next, hlt, htag, hnext⟩
    obtain ⟨hposition, htag⟩ := List.getElem?_eq_some_iff.1 htag
    obtain ⟨hbound, hnext⟩ := List.getElem?_eq_some_iff.1 hnext
    exact ⟨⟨position, hposition⟩, ⟨next, hbound⟩, hlt, htag.symm, hnext.symm⟩

/-- **The findings about a tag.** A tag is reported when two groups list it or one group lists it
twice; which of the two it is makes no difference to the check. -/
theorem tagReported_exact (catalog : GroupCatalog) (tag : String) :
    groups catalog = (repetitions catalog).map Repetition.finding
      ∧ (TagReported catalog tag ↔ Shared catalog tag
        ∨ ∃ key group, catalog.get? key = some group ∧ 2 ≤ group.tags.count tag) := by
  refine ⟨groups_eq catalog, ?_, ?_⟩
  · rintro ⟨repetition, hmem, hitem⟩
    have h := mem_repetitions_iff.1 hmem
    obtain ⟨next, hnext, htag⟩ := itemsOf_eq_tag_iff.1 (hitem ▸ h.here.item)
    obtain ⟨position, hposition, hfirst⟩ :=
      itemsOf_eq_tag_iff.1 (hitem ▸ h.item ▸ h.first.item)
    rcases h.before with hkey | ⟨hkey, hlt⟩
    · refine .inl ⟨_, _, fun heq => String.lt_irrefl _ (heq ▸ hkey),
        ⟨_, h.first.group, List.mem_of_getElem? hfirst⟩,
        _, h.here.group, List.mem_of_getElem? htag⟩
    · have hgroup : repetition.first.group = repetition.here.group := by
        have hsame := h.first.group
        rw [hkey, h.here.group] at hsame
        exact (Option.some.inj hsame).symm
      rw [hgroup] at hfirst
      exact .inr ⟨_, _, h.here.group, two_le_count_iff.2 ⟨position, next, by omega, hfirst, htag⟩⟩
  · have hoccurs {key : String} {group : Group} {position : Nat}
        (hgroup : catalog.get? key = some group) (htag : group.tags[position]? = some tag) :
        Occurrence.Of catalog ⟨key, group, position + 1, .tag tag⟩ :=
      ⟨hgroup, itemsOf_eq_tag_iff.2 ⟨position, rfl, htag⟩⟩
    rintro (⟨key, other, hne, ⟨group, hgroup, hmem⟩, mate, hmate, hmem'⟩
      | ⟨key, group, hgroup, htwice⟩)
    · obtain ⟨position, htag⟩ := List.mem_iff_getElem?.1 hmem
      obtain ⟨position', htag'⟩ := List.mem_iff_getElem?.1 hmem'
      by_cases hlt : key < other
      · exact tagReported_of_before (hoccurs hgroup htag) (hoccurs hmate htag') rfl rfl (.inl hlt)
      · exact tagReported_of_before (hoccurs hmate htag') (hoccurs hgroup htag) rfl rfl
          (.inl (Table.lt_of_not_lt_of_ne hlt hne))
    · obtain ⟨position, next, hlt, htag, hnext⟩ := two_le_count_iff.1 htwice
      exact tagReported_of_before (hoccurs hgroup htag) (hoccurs hgroup hnext) rfl rfl
        (.inr ⟨rfl, Nat.succ_lt_succ hlt⟩)

/-- One group that lists a tag twice. -/
def stammeringGroup : GroupCatalog := Table.empty.insert "a" { name := "A", tags := ["x", "x"] }

/-- The tag is reported, though no other group lists it. -/
theorem tagReported_in_one_group :
    groups stammeringGroup
        = [⟨.warning, "group 'A'", "tag 'x' is already defined in group 'A'"⟩]
      ∧ TagReported stammeringGroup "x" ∧ ¬ Shared stammeringGroup "x" := by
  refine ⟨by decide, ?_, ?_⟩
  · exact ⟨⟨⟨"a", { name := "A", tags := ["x", "x"] }, 2, .tag "x"⟩,
      "a", { name := "A", tags := ["x", "x"] }, 1, .tag "x"⟩, by decide, rfl⟩
  · have hkey {key : String} (h : ListsTag stammeringGroup key "x") : key = "a" := by
      obtain ⟨group, hgroup, -⟩ := h
      by_contra hne
      rw [stammeringGroup, Table.get?_insert, if_neg (Ne.symm hne)] at hgroup
      cases hgroup
    rintro ⟨key, other, hne, hlists, hlists'⟩
    exact hne ((hkey hlists).trans (hkey hlists').symm)

end Rulebook.Check
