import Rulebook.Proofs.Bookkeeping

/-!
# When a load fails

A load has many places at which it could break off: the labels, the directories of the categories,
the walks through them, and in every rule directory the plugin, the error keys and their metadata.
Only the first three of these are fatal. The labels cannot be read as text, their text is not what
it should be, or a category cannot be walked through (`Snapshot.CategoryFault`): it is no directory,
or the walk comes to a directory that it cannot list. The reasons are looked at in this order, the
external category before the internal one, and the first one that holds is the one that is reported
(`Snapshot.Hindrance`).

Whether a path is a directory is asked of the path alone (`Snapshot.openDirectory_eq_error_iff`). Of
what lies inside a category nothing has a say but the lengths of the paths of directories outside
the rules. That a load gets past the categories as soon as they can be walked through is
`Snapshot.load_eq_ok_iff`: what becomes of a rule is recorded and never thrown.
-/

namespace Rulebook

open Files (Node World)

/-- **Why a path is not that of a directory**, if it is not. -/
def Files.World.directoryFault? (world : World) (path : String) : Option IoFault :=
  match world.node path with
  | .ok (.directory _) => none
  | .ok _ => some (.other "not a directory")
  | .error fault => some fault

theorem Files.World.isDirectory_iff {world : World} {path : String} :
    world.isDirectory path = true ↔ world.directoryFault? path = none := by
  rw [isDirectory, directoryFault?]
  cases world.node path with
  | error fault => simp
  | ok node => cases node <;> simp

namespace Snapshot

variable {world : World} {path : String}

/-! ## The categories -/

/-- A path is opened or there is a reason why it is not that of a directory. -/
theorem openDirectory_outcome (world : World) (path : String) :
    (world.directoryFault? path = none ∧ ∃ directory, openDirectory world path = .ok directory)
      ∨ ∃ fault, world.directoryFault? path = some fault
        ∧ openDirectory world path = .error (.file path fault) := by
  rw [openDirectory, World.directoryFault?, World.node]
  cases world.reach path with
  | error fault => exact .inr ⟨fault, rfl, rfl⟩
  | ok position =>
    dsimp only [bind, Except.bind]
    cases position.node? world.root with
    | none => exact .inr ⟨.notFound, rfl, rfl⟩
    | some node =>
      cases node with
      | directory entries => exact .inl ⟨rfl, _, rfl⟩
      | file bytes => exact .inr ⟨_, rfl, rfl⟩
      | link target => exact .inr ⟨_, rfl, rfl⟩

/-- A path is opened when it leads to a directory. -/
theorem exists_openDirectory_iff :
    (∃ directory, openDirectory world path = .ok directory)
      ↔ world.directoryFault? path = none := by
  rcases openDirectory_outcome world path with ⟨hnone, hopen⟩ | ⟨fault, hfault, hopen⟩
  · exact iff_of_true hopen hnone
  · simp [hfault, hopen]

/-- **A path that is not opened is named, with the reason.** -/
theorem openDirectory_eq_error_iff {error : Error} : openDirectory world path = .error error
    ↔ ∃ fault, world.directoryFault? path = some fault ∧ error = .file path fault := by
  rcases openDirectory_outcome world path with ⟨hnone, directory, hopen⟩ | ⟨fault, hfault, hopen⟩
  · simp [hnone, hopen]
  · simp [hfault, hopen, eq_comm]

/-- A directory is opened where it is looked for. -/
theorem isDirectory_of_openDirectory {directory : Directory}
    (h : openDirectory world path = .ok directory) : world.isDirectory path = true :=
  World.isDirectory_iff.2 (exists_openDirectory_iff.1 ⟨directory, h⟩)

/-- **Why a category cannot be walked through**, with the error that is reported: its path is not
that of a directory, or the walk comes to directories that it cannot list, and the first of these is
named. -/
inductive CategoryFault (world : World) (path : String) : Error → Prop
  /-- There is no directory. -/
  | unopened {fault : IoFault} (h : world.directoryFault? path = some fault) :
    CategoryFault world path (.file path fault)
  /-- A directory that the walk comes to cannot be listed. -/
  | barred {directory found : Directory} (hopen : openDirectory world path = .ok directory)
    (h : (directory.barred world.root).head? = some found) :
    CategoryFault world path (.file found.path .nameTooLong)

/-- A category cannot be walked through when it is not opened, or when the walk breaks off. -/
theorem categoryFault_iff {error : Error} : CategoryFault world path error
    ↔ (openDirectory world path >>= fun directory => directory.unlessBarred world.root ())
      = .error error := by
  constructor
  · intro h
    cases h with
    | unopened h =>
      rw [openDirectory_eq_error_iff.2 ⟨_, h, rfl⟩]
      rfl
    | @barred directory found hopen h =>
      rw [hopen]
      show directory.unlessBarred world.root () = _
      rw [Directory.unlessBarred, h]
      rfl
  · intro h
    cases hopen : openDirectory world path with
    | error fault =>
      rw [hopen] at h
      obtain rfl := Except.error.inj h
      obtain ⟨fault, hfault, rfl⟩ := openDirectory_eq_error_iff.1 hopen
      exact .unopened hfault
    | ok directory =>
      rw [hopen] at h
      change directory.unlessBarred world.root () = _ at h
      rw [Directory.unlessBarred] at h
      cases hbarred : (directory.barred world.root).head? with
      | none =>
        rw [hbarred] at h
        cases h
      | some found =>
        rw [hbarred] at h
        obtain rfl := Except.error.inj h
        exact .barred hopen hbarred

/-- **A category is not loaded exactly when it cannot be walked through**, and then with that
error. -/
theorem loadCategory_eq_error_iff {codes : LabelCodes} {category : Category} {snapshot : Snapshot}
    {error : Error} : loadCategory world path codes category snapshot = .error error
      ↔ CategoryFault world (Path.join path category.name) error := by
  rw [categoryFault_iff]
  cases hopen : openDirectory world (Path.join path category.name) with
  | error fault =>
    rw [loadCategory, hopen]
    show Except.error fault = _ ↔ Except.error fault = _
    rw [Except.error.injEq, Except.error.injEq]
  | ok directory =>
    rw [loadCategory_eq hopen]
    show _ ↔ directory.unlessBarred world.root () = _
    rw [Directory.unlessBarred, Directory.unlessBarred]
    cases (directory.barred world.root).head? <;> simp

end Snapshot

/-- **A directory below another one that cannot be listed**, and that no rule directory on the way
keeps a walk from. -/
def Directory.IsUnlistableBelow (root : Node) (found directory : Directory) : Prop :=
  found.Below directory ∧ found.isListable = false
    ∧ ∀ between : Directory, between.Below directory → found.Below between →
      between.isRule root = false

/-- What lies below a directory that lies below another one lies below that one. -/
theorem Directory.Below.trans {inner between outer : Directory} (h : inner.Below between)
    (h' : between.Below outer) : inner.Below outer := by
  obtain ⟨names, entries, hne, hat, rfl⟩ := h
  obtain ⟨names', entries', -, hat', rfl⟩ := h'
  refine ⟨names' ++ names, entries, by simp [hne], ?_, ?_⟩
  · rw [Node.at?_append, hat']
    exact hat
  · rw [List.foldl_append, List.reverse_append, List.append_assoc]

/-- **A walk comes to a directory that it cannot list as soon as there is one that no rule keeps it
from**: to the outermost of those on the way. -/
theorem Directory.barred_ne_nil_iff {root : Node} {directory : Directory}
    (h : directory.node.Distinct) :
    directory.barred root ≠ [] ↔ ∃ found : Directory, found.IsUnlistableBelow root directory := by
  constructor
  · intro hne
    obtain ⟨found, hfound⟩ := List.exists_mem_of_ne_nil _ hne
    obtain ⟨hbelow, hlist, hnone⟩ := (mem_barred h).1 hfound
    exact ⟨found, hbelow, hlist, fun between hbetween hinner => (hnone between hbetween hinner).1⟩
  · rintro ⟨found, hbelow, hlist, hnone⟩
    induction hlength : found.place.length using Nat.strong_induction_on generalizing found with
    | h length ih =>
      by_cases hall : ∀ between : Directory, between.Below directory → found.Below between →
          between.isListable = true
      · exact List.ne_nil_of_mem ((mem_barred h).2 ⟨hbelow, hlist, fun between hbetween hinner =>
          ⟨hnone between hbetween hinner, hall between hbetween hinner⟩⟩)
      · -- one on the way cannot be listed either, and it is nearer
        push Not at hall
        obtain ⟨between, hbetween, hinner, hlist'⟩ := hall
        exact ih _ (hlength ▸ hinner.length_lt) between hbetween (Bool.eq_false_iff.2 hlist')
          (fun outer houter hin => hnone outer houter (hinner.trans hin)) rfl

namespace Snapshot

variable {world : World} {path : String}

/-- There is a reason why a category cannot be walked through when it is no directory, or a
directory outside the rules cannot be listed. -/
theorem exists_categoryFault_iff : (∃ error, CategoryFault world path error) ↔
    world.isDirectory path = false ∨ ∃ directory found : Directory,
      openDirectory world path = .ok directory ∧ found.IsUnlistableBelow world.root directory := by
  constructor
  · rintro ⟨error, h⟩
    cases h with
    | unopened h =>
      refine .inl (Bool.eq_false_iff.2 fun hdirectory => ?_)
      rw [World.isDirectory_iff.1 hdirectory] at h
      cases h
    | @barred directory found hopen h =>
      have hne : directory.barred world.root ≠ [] := fun hnil => by
        rw [hnil] at h
        cases h
      obtain ⟨found, hfound⟩ :=
        (Directory.barred_ne_nil_iff (distinct_of_openDirectory hopen)).1 hne
      exact .inr ⟨directory, found, hopen, hfound⟩
  · rintro (h | ⟨directory, found, hopen, hfound⟩)
    · have hne : world.directoryFault? path ≠ none := fun hnone => by
        rw [World.isDirectory_iff.2 hnone] at h
        cases h
      obtain ⟨fault, hfault⟩ := Option.ne_none_iff_exists'.1 hne
      exact ⟨_, .unopened hfault⟩
    · have hne := (Directory.barred_ne_nil_iff (distinct_of_openDirectory hopen)).2 ⟨found, hfound⟩
      exact ⟨_, .barred hopen (List.head?_eq_some_head hne)⟩

/-! ## The reasons -/

/-- **What keeps a load from succeeding**, with the error that is reported. Each reason presupposes
that none of those before it holds. -/
inductive Hindrance (world : World) (path : String) : Error → Prop
  /-- The labels cannot be read as text. -/
  | unreadable {fault : IoFault}
    (h : world.readText (Path.join path labelCodesFile) = .error fault) :
    Hindrance world path (.file (Path.join path labelCodesFile) fault)
  /-- The text of the labels is not what it should be. -/
  | undecodable {text message : String} {cause : Option String}
    (htext : world.readText (Path.join path labelCodesFile) = .ok text)
    (h : LabelCodes.ofYaml text = .error (.parse message cause)) :
    Hindrance world path (.parse message cause)
  /-- The external category cannot be walked through. -/
  | external {text : String} {codes : LabelCodes} {error : Error}
    (htext : world.readText (Path.join path labelCodesFile) = .ok text)
    (hcodes : LabelCodes.ofYaml text = .ok codes)
    (h : CategoryFault world (Path.join path Category.external.name) error) :
    Hindrance world path error
  /-- The internal category cannot be walked through. -/
  | internal {text : String} {codes : LabelCodes} {error : Error}
    (htext : world.readText (Path.join path labelCodesFile) = .ok text)
    (hcodes : LabelCodes.ofYaml text = .ok codes)
    (hexternal : ∀ error, ¬ CategoryFault world (Path.join path Category.external.name) error)
    (h : CategoryFault world (Path.join path Category.internal.name) error) :
    Hindrance world path error

/-- The labels are known when their file is text and its text is what it should be. -/
theorem loadCodes_eq_ok_iff {codes : LabelCodes} : loadCodes world path = .ok codes
    ↔ ∃ text, world.readText path = .ok text ∧ LabelCodes.ofYaml text = .ok codes := by
  rw [loadCodes]
  cases world.readText path <;> simp

/-- **A load fails exactly when something hinders it**, and with that error. -/
theorem load_eq_error_iff {error : Error} :
    load world path = .error error ↔ Hindrance world path error := by
  constructor
  · intro h
    rw [load] at h
    cases htext : world.readText (Path.join path labelCodesFile) with
    | error fault =>
      rw [loadCodes, htext] at h
      obtain rfl := Except.error.inj h
      exact .unreadable htext
    | ok text =>
      cases hcodes : LabelCodes.ofYaml text with
      | error fault =>
        rw [loadCodes, htext] at h
        dsimp only at h
        rw [hcodes] at h
        obtain rfl := Except.error.inj h
        obtain ⟨message, cause, rfl⟩ := exists_parse_of_readYaml hcodes
        exact .undecodable htext hcodes
      | ok codes =>
        rw [loadCodes_eq_ok_iff.2 ⟨text, htext, hcodes⟩] at h
        change (loadCategory world path codes .external _ >>= _) = _ at h
        cases hexternal : loadCategory world path codes .external { rules := { codes } } with
        | error fault =>
          rw [hexternal] at h
          obtain rfl := Except.error.inj h
          exact .external htext hcodes (loadCategory_eq_error_iff.1 hexternal)
        | ok snapshot =>
          rw [hexternal] at h
          refine .internal htext hcodes (fun error hfault => ?_) (loadCategory_eq_error_iff.1 h)
          rw [loadCategory_eq_error_iff.2 hfault] at hexternal
          cases hexternal
  · intro h
    cases h with
    | unreadable h =>
      rw [load, loadCodes, h]
      rfl
    | undecodable htext h =>
      rw [load, loadCodes, htext]
      dsimp only
      rw [h]
      rfl
    | @external text codes _ htext hcodes h =>
      rw [load, loadCodes_eq_ok_iff.2 ⟨text, htext, hcodes⟩]
      show (loadCategory world path codes .external _ >>= _) = _
      rw [loadCategory_eq_error_iff.2 h]
      rfl
    | @internal text codes _ htext hcodes hexternal h =>
      rw [load, loadCodes_eq_ok_iff.2 ⟨text, htext, hcodes⟩]
      show (loadCategory world path codes .external _ >>= _) = _
      cases hload : loadCategory world path codes .external { rules := { codes } } with
      | error fault => exact absurd (loadCategory_eq_error_iff.1 hload) (hexternal fault)
      | ok snapshot => exact loadCategory_eq_error_iff.2 h

/-- What hinders a load is the labels or a category, whatever else there is. -/
theorem exists_hindrance_iff : (∃ error, Hindrance world path error) ↔
    (∃ fault, world.readText (Path.join path labelCodesFile) = .error fault)
      ∨ (∃ text error, world.readText (Path.join path labelCodesFile) = .ok text
        ∧ LabelCodes.ofYaml text = .error error)
      ∨ ∃ category : Category, ∃ error,
        CategoryFault world (Path.join path category.name) error := by
  constructor
  · rintro ⟨error, h⟩
    cases h with
    | unreadable h => exact .inl ⟨_, h⟩
    | undecodable htext h => exact .inr (.inl ⟨_, _, htext, h⟩)
    | external _ _ h => exact .inr (.inr ⟨.external, _, h⟩)
    | internal _ _ _ h => exact .inr (.inr ⟨.internal, _, h⟩)
  · intro h
    cases htext : world.readText (Path.join path labelCodesFile) with
    | error fault => exact ⟨_, .unreadable htext⟩
    | ok text =>
      cases hcodes : LabelCodes.ofYaml text with
      | error error =>
        obtain ⟨message, cause, rfl⟩ := exists_parse_of_readYaml hcodes
        exact ⟨_, .undecodable htext hcodes⟩
      | ok codes =>
        by_cases hexternal :
          ∃ error, CategoryFault world (Path.join path Category.external.name) error
        · obtain ⟨error, hfault⟩ := hexternal
          exact ⟨_, .external htext hcodes hfault⟩
        · have hinternal : ∃ error,
              CategoryFault world (Path.join path Category.internal.name) error := by
            obtain ⟨category, hfault⟩ : ∃ category : Category, ∃ error,
                CategoryFault world (Path.join path category.name) error := by
              simpa [htext, hcodes] using h
            cases category with
            | external => exact absurd hfault hexternal
            | internal => exact hfault
          obtain ⟨error, hfault⟩ := hinternal
          exact ⟨_, .internal htext hcodes (not_exists.1 hexternal) hfault⟩

/-- **Once the labels are known a load fails with the fault of the first category that has one.** -/
theorem load_eq_error_iff_of_loadCodes {codes : LabelCodes} {error : Error}
    (hcodes : loadCodes world (Path.join path labelCodesFile) = .ok codes) :
    load world path = .error error
      ↔ CategoryFault world (Path.join path Category.external.name) error
        ∨ (∀ error, ¬ CategoryFault world (Path.join path Category.external.name) error)
          ∧ CategoryFault world (Path.join path Category.internal.name) error := by
  obtain ⟨text, htext, hparsed⟩ := loadCodes_eq_ok_iff.1 hcodes
  rw [load_eq_error_iff]
  constructor
  · intro h
    cases h with
    | unreadable h => rw [htext] at h; cases h
    | undecodable htext' h =>
      rw [htext] at htext'
      obtain rfl := Except.ok.inj htext'
      rw [hparsed] at h
      cases h
    | external _ _ h => exact .inl h
    | internal _ _ hexternal h => exact .inr ⟨hexternal, h⟩
  · rintro (h | ⟨hexternal, h⟩)
    · exact .external htext hparsed h
    · exact .internal htext hparsed hexternal h

/-! ## What a load fails for -/

/-- **A load fails for exactly these reasons.** It fails when the labels cannot be read as text,
when their text is not what it should be, when one of the categories is no directory, or when it has
below it, outside the rules, a directory that cannot be listed; and for nothing else that lies
inside the categories. The error is that of the first reason that holds. A load that does not fail
has the labels that are in their file. -/
theorem load_fails_exactly (world : World) (path : String) :
    ((∃ error, load world path = .error error) ↔
      (∃ fault, world.readText (Path.join path labelCodesFile) = .error fault)
        ∨ (∃ text error, world.readText (Path.join path labelCodesFile) = .ok text
          ∧ LabelCodes.ofYaml text = .error error)
        ∨ ∃ category : Category, world.isDirectory (Path.join path category.name) = false
          ∨ ∃ directory found : Directory,
            openDirectory world (Path.join path category.name) = .ok directory
              ∧ found.IsUnlistableBelow world.root directory)
      ∧ (∀ error, load world path = .error error ↔ Hindrance world path error)
      ∧ (∀ snapshot, load world path = .ok snapshot →
        ∃ text, world.readText (Path.join path labelCodesFile) = .ok text
          ∧ LabelCodes.ofYaml text = .ok snapshot.rules.codes) := by
  refine ⟨?_, fun error => load_eq_error_iff, fun snapshot h => ?_⟩
  · simp only [← exists_categoryFault_iff]
    rw [← exists_hindrance_iff]
    exact exists_congr fun error => load_eq_error_iff
  · obtain ⟨codes, hcodes, -, rfl⟩ := load_eq_ok_iff.1 h
    rw [codes_foldl]
    exact loadCodes_eq_ok_iff.1 hcodes

/-- A content whose external rules are faulty throughout and whose internal ones are a file. -/
def halfContent : World := .ofPlaces [] [
  (["config.yaml"], .file []),
  (["external", "faulty", "plugin.yaml"], .file [255, 58]),
  (["external", "faulty", "key"], .directory []),
  (["external", "loop"], .link "loop"),
  (["internal"], .file [])]

/-- What stands for the external rules of that content. -/
def halfExternal : List (String × Node) :=
  [("faulty", .directory [("plugin.yaml", .file [255, 58]), ("key", .directory [])]),
    ("loop", .link "loop")]

/-- What stands in the root of that content. -/
def halfEntries : List (String × Node) :=
  [("config.yaml", .file []), ("external", .directory halfExternal), ("internal", .file [])]

theorem halfContent_root : halfContent.root = .directory halfEntries := rfl

/-- It is refused for the file that stands in the place of a directory, and for nothing else. -/
theorem load_fails_exactly_halfContent :
    load halfContent "." = .error (.file "./internal" (.other "not a directory")) := by
  have hread := readText_here halfContent_root rfl rfl decode?_nil
  have hexternal (error : Error) :
      ¬ CategoryFault halfContent (Path.join "." Category.external.name) error := fun h => by
    have hwalk := walkable_here halfContent_root rfl (by decide +kernel) .external rfl
    have hload : loadCategory halfContent "." {} .external {} = .ok _ :=
      loadCategory_eq_ok_iff.2 ⟨⟨_, hwalk⟩, rfl⟩
    rw [loadCategory_eq_error_iff.2 h] at hload
    cases hload
  have hfind : Node.find? Category.internal.name halfEntries = some (.file []) := rfl
  obtain ⟨hreach, hnode⟩ :=
    reach_here halfContent_root rfl (.inr ⟨.internal, rfl⟩) hfind (by simp)
  have hinternal : halfContent.directoryFault? (Path.join "." Category.internal.name)
      = some (.other "not a directory") := by
    rw [World.directoryFault?, World.node, hreach]
    simp only [bind, Except.bind, hnode, pure, Except.pure]
  exact ((load_fails_exactly halfContent ".").2.1 _).2
    (.internal hread rfl hexternal (.unopened hinternal))

/-! ## A path that is too long -/

/-- A path to the directory that relative paths start from, with more slashes than are needed. -/
def slashedPath (slashes : Nat) : String := "." ++ String.ofList (List.replicate slashes '/')

theorem toList_slashedPath (slashes : Nat) :
    (slashedPath slashes).toList = '.' :: List.replicate slashes '/' :=
  (String.toList_append ..).trans (congrArg (['.'] ++ ·) String.toList_ofList)

theorem utf8ByteSize_slashedPath (slashes : Nat) :
    (slashedPath slashes).utf8ByteSize = slashes + 1 := by
  have hslashes : (String.ofList (List.replicate slashes '/')).utf8ByteSize = slashes := by
    induction slashes with
    | zero => rfl
    | succ slashes ih =>
      rw [List.replicate_succ, String.ofList_cons, String.utf8ByteSize_append, ih,
        String.utf8ByteSize_singleton, Nat.add_comm]
      rfl
  rw [slashedPath, String.utf8ByteSize_append, hslashes, Nat.add_comm]
  rfl

theorem join_slashedPath (slashes : Nat) {name : String} (hname : Path.isAbsolute name = false) :
    Path.join (slashedPath (slashes + 1)) name = slashedPath (slashes + 1) ++ name := by
  have hempty : (slashedPath (slashes + 1)).isEmpty = false := by
    rw [String.isEmpty_eq_utf8ByteSize_beq_zero, utf8ByteSize_slashedPath]
    rfl
  have hlast : (slashedPath (slashes + 1)).toList.getLast? = some '/' := by
    rw [toList_slashedPath, List.replicate_succ', ← List.cons_append, List.getLast?_concat]
  rw [Path.join, hname, hempty, hlast]
  rfl

/-- Slashes that follow each other do not count. -/
theorem split_slashes (slashes : Nat) (chars : List Char) :
    (Text.split '/' (List.replicate slashes '/' ++ chars)).filter (!·.isEmpty)
      = (Text.split '/' chars).filter (!·.isEmpty) := by
  induction slashes with
  | zero => rfl
  | succ slashes ih =>
    have hcut := Text.split_append '/' [] (List.replicate slashes '/' ++ chars)
    rw [List.nil_append] at hcut
    rw [List.replicate_succ, List.cons_append, hcut, List.filter_append, ih]
    rfl

/-- **However many slashes there are, the path is followed in the same steps.** -/
theorem steps_slashedPath (slashes : Nat) (name : String) :
    Path.steps (slashedPath (slashes + 1) ++ name) = Path.steps (slashedPath 1 ++ name) := by
  have hcomponents (slashes : Nat) : Path.components (slashedPath (slashes + 1) ++ name)
      = ((Text.split '/' ['.'] ++ Text.split '/' name.toList).filter (!·.isEmpty)).map
        String.ofList := by
    rw [Path.components, String.toList_append, toList_slashedPath, List.replicate_succ,
      List.filter_append, ← split_slashes slashes name.toList, ← List.filter_append,
      ← Text.split_append]
    rfl
  have hlast (slashes : Nat) : (slashedPath (slashes + 1) ++ name).toList.getLast?
      = name.toList.getLast?.or (some '/') := by
    rw [String.toList_append, toList_slashedPath, List.getLast?_append, List.replicate_succ',
      ← List.cons_append, List.getLast?_concat]
  rw [Path.steps, Path.steps, hcomponents, hlast, hcomponents 0, hlast 0]

/-- **What is sought is reached by that path as well**, as long as it is not too long. -/
theorem reach_slashedPath (world : World) (slashes : Nat) {name : String} (hname : IsSought name)
    (hroom : slashes + 2 + name.utf8ByteSize ≤ Path.maxSize) :
    world.reach (Path.join (slashedPath (slashes + 1)) name)
      = world.reach (Path.join "." name) := by
  have hplain : Path.isAbsolute name = false ∧ '\x00' ∉ name.toList
      ∧ Path.join "." name = slashedPath 1 ++ name := by
    rcases hname with rfl | ⟨_ | _, rfl⟩ <;> decide
  -- what is asked of a path before it is followed is the same whatever the number of slashes
  have hreach (slashes : Nat) (hroom : slashes + 2 + name.utf8ByteSize ≤ Path.maxSize) :
      world.reach (slashedPath (slashes + 1) ++ name) = World.follow world.root
        ⟨world.start.reverse, World.maxLinks⟩ (Path.steps (slashedPath 1 ++ name)) := by
    have hsize : (slashedPath (slashes + 1) ++ name).utf8ByteSize
        = slashes + 2 + name.utf8ByteSize := by
      rw [String.utf8ByteSize_append, utf8ByteSize_slashedPath]
    have hempty : (slashedPath (slashes + 1) ++ name).isEmpty = false := by
      rw [String.isEmpty_eq_utf8ByteSize_beq_zero, hsize]
      exact beq_false_of_ne (by omega)
    have hnull : (slashedPath (slashes + 1) ++ name).toList.contains '\x00' = false := by
      rw [String.toList_append, toList_slashedPath]
      simpa using hplain.2.1
    have hfits : Path.fits (slashedPath (slashes + 1) ++ name) = true :=
      decide_eq_true (hsize ▸ hroom)
    have habsolute : Path.isAbsolute (slashedPath (slashes + 1) ++ name) = false := by
      rw [Path.isAbsolute, String.toList_append, toList_slashedPath]
      rfl
    rw [World.reach, hempty, hnull, hfits, habsolute, steps_slashedPath]
    rfl
  rw [join_slashedPath slashes hplain.1, hplain.2.2, hreach slashes hroom, hreach 0 (by omega)]

/-- A content without rules that has an ordinary directory among the external rules. -/
def ordinaryContent : World := .ofPlaces [] [
  (["config.yaml"], .file []),
  (["external", "ordinary"], .directory []),
  (["internal"], .directory [])]

/-- What stands in the root of that content. -/
def ordinaryEntries : List (String × Node) := [("config.yaml", .file []),
  ("external", .directory [("ordinary", .directory [])]), ("internal", .directory [])]

theorem ordinaryContent_root : ordinaryContent.root = .directory ordinaryEntries := rfl

/-- The directory of the external rules of that content, by the path that it is come to by. -/
def ordinaryExternal (path : String) : Directory where
  place := ["external"]
  links := World.maxLinks
  path := path
  entries := [("ordinary", .directory [])]

/-- The ordinary directory. -/
def ordinaryDirectory (path : String) : Directory where
  place := ["ordinary", "external"]
  links := World.maxLinks
  path := (ordinaryExternal path).pathOf "ordinary"
  entries := []

/-- **A directory that cannot be listed bars the way**, though it is no rule's. -/
theorem barred_ordinaryExternal (root : Node) {path : String}
    (hlong : Path.fits ((ordinaryExternal path).pathOf "ordinary") = false) :
    (ordinaryExternal path).barred root = [ordinaryDirectory path] := by
  have hlist : (ordinaryDirectory path).isListable = false := hlong
  have hrule : (ordinaryDirectory path).isRule root = false :=
    Bool.eq_false_iff.2 (Directory.not_isRule_of_unlistable hlist)
  have hheld : (ordinaryExternal path).subdirectories = [ordinaryDirectory path] :=
    Directory.subdirectories_of_single rfl
  rw [Directory.barred, Directory.stops, Directory.outermostBelow, hheld, List.flatMap_singleton,
    Directory.outermost_eq, Directory.isStop, hrule, hlist]
  simp [hrule]

section Slashed

variable {slashes : Nat}

/-- By a path with so many slashes the labels and the categories of that content are found. -/
theorem reach_ordinaryContent (hroom : slashes + 13 ≤ Path.maxSize) :
    ordinaryContent.readText (Path.join (slashedPath (slashes + 1)) labelCodesFile) = .ok ""
      ∧ openDirectory ordinaryContent
          (Path.join (slashedPath (slashes + 1)) Category.external.name)
        = .ok (ordinaryExternal (Path.join (slashedPath (slashes + 1)) Category.external.name))
      ∧ ordinaryContent.isDirectory
          (Path.join (slashedPath (slashes + 1)) Category.internal.name) = true := by
  have hreach {name : String} (hname : IsSought name) (hsize : name.utf8ByteSize ≤ 11)
      {node : Node} (hfind : Node.find? name ordinaryEntries = some node)
      (hnode : ∀ target, node ≠ .link target) :
      ordinaryContent.reach (Path.join (slashedPath (slashes + 1)) name)
          = .ok ⟨[name], World.maxLinks⟩
        ∧ Files.Position.node? ordinaryContent.root ⟨[name], World.maxLinks⟩ = some node := by
    rw [reach_slashedPath ordinaryContent slashes hname (by omega)]
    exact reach_here ordinaryContent_root rfl hname hfind hnode
  obtain ⟨hlabels, hlabelsNode⟩ := hreach (.inl rfl) (by decide) rfl (by simp)
  obtain ⟨hexternal, hexternalNode⟩ := hreach (.inr ⟨.external, rfl⟩) (by decide) rfl (by simp)
  obtain ⟨hinternal, hinternalNode⟩ := hreach (.inr ⟨.internal, rfl⟩) (by decide) rfl (by simp)
  refine ⟨?_, ?_, ?_⟩
  · rw [World.readText, World.readBytes, World.node, hlabels]
    simp only [bind, Except.bind, hlabelsNode, decode?_nil, pure, Except.pure]
  · rw [openDirectory, hexternal]
    simp only [hexternalNode]
    rfl
  · rw [World.isDirectory, World.node, hinternal]
    simp only [bind, Except.bind, hinternalNode, pure, Except.pure]

/-- **If only the path of the ordinary directory is too long**, that content is not loaded. -/
theorem load_ordinaryContent (hroom : slashes + 13 ≤ Path.maxSize)
    (hlong : Path.maxSize < slashes + 18) :
    load ordinaryContent (slashedPath (slashes + 1)) = .error (.file
      (Path.join (Path.join (slashedPath (slashes + 1)) Category.external.name) "ordinary")
      .nameTooLong) := by
  obtain ⟨hread, hopen, -⟩ := reach_ordinaryContent hroom
  have hunlistable : Path.fits (Path.join (Path.join (slashedPath (slashes + 1))
      Category.external.name) "ordinary") = false := by
    have hinner := Directory.le_size_join (slashedPath (slashes + 1))
      (show Path.isAbsolute Category.external.name = false by decide)
    have houter := Directory.le_size_join
      (Path.join (slashedPath (slashes + 1)) Category.external.name)
      (show Path.isAbsolute "ordinary" = false by decide)
    have hnames : Category.external.name.utf8ByteSize = 8 ∧ "ordinary".utf8ByteSize = 8 := by decide
    rw [utf8ByteSize_slashedPath] at hinner
    exact decide_eq_false (by omega)
  have hbarred := barred_ordinaryExternal ordinaryContent.root hunlistable
  exact load_eq_error_iff.2 (.external hread rfl (.barred hopen (congrArg List.head? hbarred)))

end Slashed

/-- **A load can fail although the labels and both categories are there.** By a path that is long
enough the content without rules is not loaded: the labels can be read, and both categories are
directories, but the ordinary directory in one of them cannot be listed. -/
theorem load_fails_within_category :
    ordinaryContent.readText (Path.join (slashedPath 4079) labelCodesFile) = .ok ""
      ∧ LabelCodes.ofYaml "" = .ok {}
      ∧ ordinaryContent.isDirectory (Path.join (slashedPath 4079) Category.external.name) = true
      ∧ ordinaryContent.isDirectory (Path.join (slashedPath 4079) Category.internal.name) = true
      ∧ load ordinaryContent (slashedPath 4079) = .error (.file
        (Path.join (Path.join (slashedPath 4079) Category.external.name) "ordinary")
        .nameTooLong) := by
  have hslashes : 4079 = 4078 + 1 := rfl
  have hroom : 4078 + 13 ≤ Path.maxSize := by decide
  rw [hslashes]
  obtain ⟨hread, hopen, hinternal⟩ := reach_ordinaryContent hroom
  exact ⟨hread, rfl, isDirectory_of_openDirectory hopen, hinternal,
    load_ordinaryContent hroom (by decide)⟩

end Snapshot

end Rulebook
