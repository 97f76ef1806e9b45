import Rulebook.Proofs.Consistency
import Rulebook.Proofs.Counterpart
import Rulebook.Proofs.LoadFailure
import Rulebook.Proofs.Utf8

/-!
# What labels stand for

What a label stands for is a matter of numbers. Whatever number the labels of a content are given,
the same rules are found in it, the same ones of them are loaded, the others fail with the same
errors, and the rules that are loaded differ at most in the numbers of their impacts and resolution
risks. `Rule.uncoded` leaves these out, and two loads are compared by what is left.

The labels are given in a file. Two contents that give them otherwise are two trees that differ in
the bytes of this one file, and the argument has two parts: rules that read alike are loaded alike
up to the numbers (`Rule.load_uncoded`), and outside that file everything reads alike. The second
part presupposes that the file is not read once more, through a link, as one of the files of a rule
(`Snapshot.ReadsApart`).
-/

namespace Rulebook

open Files (Node Position World)

/-! ## Rules without their numbers -/

/-- Metadata without the numbers of their labels. -/
def Metadata.uncoded (metadata : Metadata) : Metadata :=
  { metadata with impact := ⟨metadata.impact.name, 0⟩, resolutionRisk := 0 }

/-- An error key without the numbers of its labels. -/
def ErrorKey.uncoded (key : ErrorKey) : ErrorKey :=
  { key with metadata := key.metadata.uncoded }

/-- **A rule without the numbers of its labels.** -/
def Rule.uncoded (rule : Rule) : Rule :=
  { rule with errorKeys := rule.errorKeys.map ErrorKey.uncoded }

/-- Two outcomes are the same up to a change of what was made when they fail alike or what was made
is the same up to the change. -/
theorem map_eq_map_iff {α β : Type} {f : α → β} {outcome other : Except Error α} :
    outcome.map f = other.map f ↔ (∃ error, outcome = .error error ∧ other = .error error)
      ∨ ∃ made next, outcome = .ok made ∧ other = .ok next ∧ f made = f next := by
  cases outcome <;> cases other <;> simp [Except.map, eq_comm]

section Uncoded

variable (root : Node) (codes others : LabelCodes)

/-- **No label, known or unknown, is refused.** -/
theorem Metadata.ofYaml_uncoded (text : String) :
    (ofYaml text codes).map uncoded = (ofYaml text others).map uncoded := by
  unfold ofYaml
  cases readYaml {} WrittenMetadata.read metadataFile text with
  | error error => rfl
  | ok written =>
    show (written.resolve codes).map uncoded = (written.resolve others).map uncoded
    unfold WrittenMetadata.resolve
    cases Condition.ofValue written.condition <;> rfl

theorem ErrorKey.load_uncoded (directory : Directory) :
    (load root codes directory).map uncoded = (load root others directory).map uncoded := by
  unfold load
  cases directory.text? root metadataFile with
  | none => rfl
  | some text =>
    rcases map_eq_map_iff.1 (Metadata.ofYaml_uncoded codes others text) with
      ⟨error, h, h'⟩ | ⟨metadata, next, h, h', hsame⟩
    · simp only [h, h', bind, Except.bind, Except.map]
    · simp only [h, h']
      show Except.ok (ErrorKey.uncoded _) = Except.ok (ErrorKey.uncoded _)
      simp only [uncoded, hsame]

/-- Error keys with their names, without the numbers of their labels. -/
def ErrorKey.uncodedAll (keys : List (String × ErrorKey)) : List (String × ErrorKey) :=
  keys.map fun entry => (entry.1, entry.2.uncoded)

theorem ErrorKey.loadAll_uncoded (directories : List Directory) :
    (loadAll root codes directories).map uncodedAll
      = (loadAll root others directories).map uncodedAll := by
  induction directories with
  | nil => rfl
  | cons directory rest ih =>
    unfold loadAll
    rcases map_eq_map_iff.1 (load_uncoded root codes others directory) with
      ⟨error, h, h'⟩ | ⟨key, next, h, h', hsame⟩
    · simp only [h, h']
      rfl
    · rcases map_eq_map_iff.1 ih with ⟨error, hrest, hrest'⟩ | ⟨keys, nexts, hrest, hrest', hsames⟩
      · simp only [h, h', hrest, hrest']
        rfl
      · simp only [h, h', hrest, hrest']
        show Except.ok (uncodedAll ((directory.name, key) :: keys))
          = Except.ok (uncodedAll ((directory.name, next) :: nexts))
        simp only [uncodedAll, List.map_cons, hsame]
        exact congrArg (fun keys => Except.ok ((directory.name, next.uncoded) :: keys)) hsames

namespace Rule

/-- Whether an error key lacks a text does not depend on numbers. -/
theorem incomplete_uncoded (keys : Table ErrorKey) :
    incomplete (keys.map ErrorKey.uncoded) = incomplete keys := by
  unfold incomplete Table.map
  rw [List.filterMap_map]
  rfl

theorem inheritAll_uncoded (texts : Texts) (keys : List (String × ErrorKey)) :
    (inheritAll texts keys).map ErrorKey.uncoded
      = inheritAll texts (ErrorKey.uncodedAll keys) := by
  unfold inheritAll ErrorKey.uncodedAll
  rw [Table.map_ofList, Table.map_ofList, Table.map_ofList, List.map_map, List.map_map]
  rfl

/-- **A rule is loaded alike whatever its labels stand for**, up to the numbers. -/
theorem load_uncoded (directory : Directory) :
    (load root codes directory).map uncoded = (load root others directory).map uncoded := by
  unfold load
  cases directory.text? root pluginFile with
  | none => rfl
  | some text =>
    dsimp only
    cases Plugin.ofYaml text with
    | error error => rfl
    | ok plugin =>
      rcases map_eq_map_iff.1
          (ErrorKey.loadAll_uncoded root codes others directory.subdirectories) with
        ⟨error, h, h'⟩ | ⟨keys, nexts, h, h', hsame⟩
      · simp only [h, h', bind, Except.bind, Except.map]
      · have hkeys (texts : Texts) : (inheritAll texts keys).map ErrorKey.uncoded
            = (inheritAll texts nexts).map ErrorKey.uncoded := by
          rw [inheritAll_uncoded, inheritAll_uncoded, hsame]
        have hincomplete (texts : Texts) :
            incomplete (inheritAll texts keys) = incomplete (inheritAll texts nexts) := by
          rw [← incomplete_uncoded, hkeys, incomplete_uncoded]
        simp only [h, h', bind, Except.bind, hincomplete]
        split
        · show Except.ok (uncoded _) = Except.ok (uncoded _)
          simp only [uncoded, hkeys]
        · rfl

end Rule

end Uncoded

/-! ## Contents with other labels -/

/-- None of some files of a directory is at a place, links being followed. -/
def Directory.ReadsApart (root : Node) (files : List String) (place : List String)
    (directory : Directory) : Prop :=
  ∀ file ∈ files, ∀ position,
    World.follow root directory.toPosition [file] = .ok position → position.place ≠ place

/-- Where there are no links, a directory is read at its own files. -/
theorem Directory.readsApart_of_own {root : Node} {directory : Directory}
    (h : directory.toPosition.node? root = some (.directory directory.entries))
    (hlinks : ∀ entry ∈ directory.entries, ∀ target, entry.2 ≠ .link target)
    {files place : List String} (hfiles : ∀ file ∈ files,
      (file ≠ "." ∧ file ≠ ".." ∧ file.utf8ByteSize ≤ World.maxName)
        ∧ file :: directory.place ≠ place) : directory.ReadsApart root files place := by
  intro file hfile position hposition
  obtain ⟨hname, hplace⟩ := hfiles file hfile
  rw [World.follow_cons, World.step_eq_stepInto h hname] at hposition
  cases hfind : Node.find? file directory.entries with
  | none =>
    rw [World.stepInto, hfind] at hposition
    cases hposition
  | some node =>
    rw [World.stepInto_entry hfind (hlinks _ (Node.mem_of_find? hfind))] at hposition
    change World.follow root _ [] = _ at hposition
    rw [World.follow_nil] at hposition
    obtain rfl := Except.ok.inj hposition
    exact hplace

namespace Snapshot

/-- **A place is not read for a rule**: no file that is read for a rule that is found, or for one of
its error keys, is there. -/
def ReadsApart (world : World) (path : String) (place : List String) : Prop :=
  ∀ entry ∈ sequence world path, entry.2.ReadsApart world.root Directory.ruleFiles place
    ∧ ∀ key ∈ entry.2.subdirectories, key.ReadsApart world.root Directory.keyFiles place

section Relabelled

variable {world other : World} {place : List String} (hdiffer : World.DifferAt place world other)
  {bytes : List UInt8} (hfile : world.root.at? place.reverse = some (.file bytes))
include hdiffer hfile

theorem reach_eq (path : String) : world.reach path = other.reach path := by
  unfold World.reach
  simp only [hdiffer.start, World.follow_eq_of_file hdiffer.node hfile]

omit hdiffer in
/-- No directory is at the place or inside it. -/
theorem not_suffix_of_directory {position : Position} {entries : List (String × Node)}
    (h : position.node? world.root = some (.directory entries)) : ¬ place <:+ position.place := by
  intro hin
  rw [World.node?_of_suffix_file hfile hin] at h
  split at h <;> cases h

/-- A category is opened in both contents or fails with the same error in both. -/
theorem openDirectory_cases_of_file (path : String) :
    (∃ error, openDirectory world path = .error error ∧ openDirectory other path = .error error)
      ∨ ∃ directory mate, openDirectory world path = .ok directory
        ∧ openDirectory other path = .ok mate
        ∧ directory.Counterpart world.root other.root mate := by
  have hreach := reach_eq hdiffer hfile path
  unfold openDirectory
  rw [← hreach]
  cases hposition : world.reach path with
  | error fault => exact .inl ⟨_, rfl, rfl⟩
  | ok position =>
    have halike := hdiffer.node.node?_alike_of_file hfile position
    dsimp only
    generalize hhere : position.node? world.root = here at halike
    generalize hthere : position.node? other.root = there at halike
    cases halike with
    | none => exact .inl ⟨_, rfl, rfl⟩
    | some halike =>
      cases halike with
      | file bytes others => exact .inl ⟨_, rfl, rfl⟩
      | link target => exact .inl ⟨_, rfl, rfl⟩
      | directory entries others =>
        exact .inr ⟨_, _, rfl, rfl, rfl, rfl, hhere, hthere, World.links_le_of_reach hposition⟩

/-- A directory and its counterpart are rule directories together. -/
theorem isRule_eq_of_file {directory mate : Directory}
    (h : directory.Counterpart world.root other.root mate) :
    directory.isRule world.root = mate.isRule other.root := by
  unfold Directory.isRule Directory.resolve?
  rw [← h.pathOf, ← h.position, ← World.follow_eq_of_file hdiffer.node hfile]
  by_cases hpath : Path.fits (directory.pathOf pluginFile) = true
  · rw [if_pos hpath, if_pos hpath]
    cases World.follow world.root directory.toPosition [pluginFile] with
    | error fault => rfl
    | ok position =>
      have halike := hdiffer.node.node?_alike_of_file hfile position
      dsimp only
      generalize position.node? world.root = here at halike
      generalize position.node? other.root = there at halike
      cases halike with
      | none => rfl
      | some halike => cases halike <;> rfl
  · rw [if_neg hpath, if_neg hpath]

/-- What a directory holds and what its counterpart holds correspond one by one. -/
theorem subdirectories_counterparts {directory mate : Directory}
    (h : directory.Counterpart world.root other.root mate) :
    List.Forall₂ (Directory.Counterpart world.root other.root) directory.subdirectories
      mate.subdirectories :=
  h.subdirectories hdiffer.node (not_suffix_of_directory hfile h.here)

/-- **A category can be walked through in both contents or fails with the same error in both.** -/
theorem categoryFault_iff_of_file (path : String) {error : Error} :
    CategoryFault world path error ↔ CategoryFault other path error := by
  rw [categoryFault_iff, categoryFault_iff]
  rcases openDirectory_cases_of_file hdiffer hfile path with
    ⟨fault, h, h'⟩ | ⟨directory, mate, h, h', hmate⟩
  · rw [h, h']
    rfl
  · have hbarred : (directory.barred world.root).map Directory.unlistable
        = (mate.barred other.root).map Directory.unlistable :=
      Directory.map_barred_eq (fun _ _ => subdirectories_counterparts hdiffer hfile)
        (fun _ _ => isRule_eq_of_file hdiffer hfile) (fun _ _ h => h.path) hmate
    rw [h, h']
    show directory.unlessBarred world.root () = _ ↔ mate.unlessBarred other.root () = _
    rw [Directory.unlessBarred_congr hbarred]

/-- **The rules found in the two contents correspond one by one.** -/
theorem sequence_counterparts (path : String) :
    List.Forall₂ (fun entry mate => entry.1 = mate.1
        ∧ entry.2.Counterpart world.root other.root mate.2)
      (sequence world path) (sequence other path) := by
  have hcategories : List.Forall₂ Eq Category.all Category.all := List.forall₂_refl _
  refine List.rel_flatMap hcategories fun category _ hcategory => ?_
  subst hcategory
  rw [List.forall₂_map_left_iff, List.forall₂_map_right_iff]
  refine List.Forall₂.imp (fun _ _ h => ⟨rfl, h⟩) ?_
  rcases openDirectory_cases_of_file hdiffer hfile (Path.join path category.name) with
    ⟨error, h, h'⟩ | ⟨directory, mate, h, h', hmate⟩
  · rw [found, found, h, h']
    exact .nil
  · rw [found_eq h, found_eq h']
    exact Directory.forall₂_outermostBelow (fun _ _ => subdirectories_counterparts hdiffer hfile)
      (fun _ _ => isRule_eq_of_file hdiffer hfile) hmate

/-- A directory none of whose files was replaced reads alike. -/
theorem readsLike_of_file {directory mate : Directory}
    (h : directory.Counterpart world.root other.root mate) {files : List String}
    (hapart : directory.ReadsApart world.root files place) :
    directory.ReadsLike world.root other.root files mate := by
  refine ⟨h.name, fun file hin => ?_⟩
  refine h.text?_eq_of_follow (World.follow_eq_of_file hdiffer.node hfile _ _) ?_
  exact fun position hposition =>
    hdiffer.node.node?_of_file hfile (hapart file hin position hposition)

/-- **A rule that is not read from that file is loaded alike**, up to the numbers. -/
theorem load_eq_of_file {directory mate : Directory}
    (h : directory.Counterpart world.root other.root mate)
    (hrule : directory.ReadsApart world.root Directory.ruleFiles place)
    (hkeys : ∀ key ∈ directory.subdirectories,
      key.ReadsApart world.root Directory.keyFiles place) (codes others : LabelCodes) :
    (Rule.load world.root codes directory).map Rule.uncoded
      = (Rule.load other.root others mate).map Rule.uncoded := by
  have hheld := forall₂_mem (subdirectories_counterparts hdiffer hfile h)
  rw [Rule.load_congr codes (readsLike_of_file hdiffer hfile h hrule)
    (hheld.imp fun key keyMate ⟨hmem, hmate⟩ =>
      readsLike_of_file hdiffer hfile hmate (hkeys key hmem.1))]
  exact Rule.load_uncoded other.root codes others mate

end Relabelled

/-- The status does not depend on numbers. -/
theorem outcomeStatus_map (category : Category) (outcome : Except Error Rule) (f : Rule → Rule) :
    outcomeStatus category (outcome.map f) = outcomeStatus category outcome := by
  cases outcome <;> rfl

theorem toOption_map (outcome : Except Error Rule) (f : Rule → Rule) :
    (outcome.map f).toOption = outcome.toOption.map f := by
  cases outcome <;> rfl

/-- **Records that are the same up to the numbers leave the same behind**, up to the numbers. -/
theorem foldl_uncoded {root other : Node} {codes others : LabelCodes}
    {entries mates : List (Category × Directory)}
    (h : List.Forall₂ (fun entry mate => entry.1 = mate.1 ∧ entry.2.name = mate.2.name
      ∧ (Rule.load root codes entry.2).map Rule.uncoded
        = (Rule.load other others mate.2).map Rule.uncoded) entries mates) :
    (mates.foldl (loadEntry other others) { rules := { codes := others } }).status
        = (entries.foldl (loadEntry root codes) { rules := { codes } }).status
      ∧ (mates.foldl (loadEntry other others) { rules := { codes := others } }).rules.rules.map
          Rule.uncoded
        = (entries.foldl (loadEntry root codes) { rules := { codes } }).rules.rules.map
          Rule.uncoded := by
  constructor
  · refine Table.ext_get? fun name => ?_
    have hstatus : entries.filterMap (statusUnder root codes name)
        = mates.filterMap (statusUnder other others name) := by
      refine filterMap_eq_of_forall₂ h ?_
      rintro ⟨category, entry⟩ ⟨_, mate⟩ ⟨rfl, hname, hload⟩
      unfold statusUnder
      rw [← outcomeStatus_map category _ Rule.uncoded, hload, outcomeStatus_map, hname]
    rw [status_foldl, status_foldl, hstatus]
  · refine Table.ext_get? fun name => ?_
    have hrules :
        entries.filterMap (fun entry => (ruleUnder root codes name entry).map Rule.uncoded)
          = mates.filterMap fun mate => (ruleUnder other others name mate).map Rule.uncoded := by
      refine filterMap_eq_of_forall₂ h ?_
      rintro ⟨category, entry⟩ ⟨_, mate⟩ ⟨rfl, hname, hload⟩
      unfold ruleUnder
      rw [hname]
      split
      · rw [← toOption_map, ← toOption_map, hload]
      · rfl
    rw [Table.get?_map, Table.get?_map, rules_foldl, rules_foldl]
    show ((mates.filterMap _).getLast?.or none).map _
      = ((entries.filterMap _).getLast?.or none).map _
    rw [Option.or_none, Option.or_none, ← List.getLast?_map, ← List.getLast?_map,
      List.map_filterMap, List.map_filterMap, hrules]

/-- Labels that can be read are in a file. -/
theorem exists_file_of_loadCodes {world : World} {path : String} {codes : LabelCodes}
    {position : Position} (h : loadCodes world path = .ok codes)
    (hreach : world.reach path = .ok position) :
    ∃ bytes, position.node? world.root = some (.file bytes) := by
  unfold loadCodes World.readText World.readBytes World.node at h
  rw [hreach] at h
  simp only [bind, Except.bind] at h
  generalize position.node? world.root = found at h ⊢
  cases found with
  | none => cases h
  | some node =>
    cases node with
    | file bytes => exact ⟨bytes, rfl⟩
    | directory entries => cases h
    | link target => cases h

/-- **What labels stand for matters to nothing but the numbers.** When the file of the labels is
replaced and the labels can be read before and after, a load fails with the same error or there are
the same statuses, with the same errors, and the same rules with the same error keys, which differ
at most in the numbers of their impacts and resolution risks. -/
theorem load_relabelled {world other : World} {path : String} {codes others : LabelCodes}
    {position : Position}
    (hcodes : loadCodes world (Path.join path labelCodesFile) = .ok codes)
    (hothers : loadCodes other (Path.join path labelCodesFile) = .ok others)
    (hreach : world.reach (Path.join path labelCodesFile) = .ok position)
    (hdiffer : World.DifferAt position.place world other)
    (hapart : ReadsApart world path position.place) :
    (∃ error, load world path = .error error ∧ load other path = .error error)
      ∨ ∃ snapshot after, load world path = .ok snapshot ∧ load other path = .ok after
        ∧ after.status = snapshot.status
        ∧ after.rules.rules.map Rule.uncoded = snapshot.rules.rules.map Rule.uncoded := by
  obtain ⟨bytes, hfile⟩ := exists_file_of_loadCodes hcodes hreach
  have herror (error : Error) :
      load world path = .error error ↔ load other path = .error error := by
    rw [load_eq_error_iff_of_loadCodes hcodes, load_eq_error_iff_of_loadCodes hothers]
    simp only [categoryFault_iff_of_file hdiffer hfile]
  cases h : load world path with
  | error error => exact .inl ⟨error, rfl, (herror error).1 h⟩
  | ok snapshot =>
    cases h' : load other path with
    | error error =>
      rw [(herror error).2 h'] at h
      cases h
    | ok after =>
      obtain ⟨_, hcodes', -, rfl⟩ := load_eq_ok_iff.1 h
      obtain ⟨_, hothers', -, rfl⟩ := load_eq_ok_iff.1 h'
      obtain rfl := Except.ok.inj (hcodes.symm.trans hcodes')
      obtain rfl := Except.ok.inj (hothers.symm.trans hothers')
      refine .inr ⟨_, _, rfl, rfl, foldl_uncoded ?_⟩
      have hsequence := forall₂_mem (sequence_counterparts hdiffer hfile path)
      refine hsequence.imp fun entry mate ⟨hmem, hcategory, hmate⟩ => ⟨hcategory, hmate.name, ?_⟩
      obtain ⟨hrule, hkeys⟩ := hapart entry hmem.1
      exact load_eq_of_file hdiffer hfile hmate hrule hkeys codes others

/-- A text that gives the label another number. -/
def relabelledText : String := "impact: \x7bHigh: 4\x7d"

/-- What the label stands for then. -/
def labelsOfRelabelled : LabelCodes := { impact := ⟨[("High", 4)], List.pairwise_singleton ..⟩ }

theorem ofYaml_relabelledText : LabelCodes.ofYaml relabelledText = .ok labelsOfRelabelled :=
  eq_ok_of_toOption (by decide +kernel)

/-- The mixed content with the other number. -/
def relabelledContent : World := mixedContentOf (Text.encode relabelledText)

theorem mixedContentOf_differs (labels others : List UInt8) :
    World.DifferAt [labelCodesFile] (mixedContentOf labels) (mixedContentOf others) where
  replaced := by
    rw [mixedContentOf_root, mixedContentOf_root]
    exact .inside [] "config.yaml" [("external", _), ("internal", _), ("groups.yaml", _)]
      (.here (.file _ _))
  start := rfl

theorem readsApart_mixedContent : ReadsApart mixedContent "." [labelCodesFile] := by
  have hfaulty := faultyRule_node (Text.encode labelsText)
  intro entry hentry
  rw [mixedContent, sequence_mixedContentOf] at hentry
  simp only [List.mem_cons, List.not_mem_nil, or_false] at hentry
  rcases hentry with rfl | rfl
  · refine ⟨Directory.readsApart_of_own (soundRule_node _) (by simp [soundRule, soundEntries])
      (by decide), fun key hkey => ?_⟩
    obtain rfl : key = soundKey := by
      rw [show soundRule.subdirectories = [soundKey] from Directory.subdirectories_of_single rfl]
        at hkey
      exact List.mem_singleton.1 hkey
    exact Directory.readsApart_of_own (soundKey_node _) (by simp [soundKey]) (by decide)
  · refine ⟨Directory.readsApart_of_own hfaulty (by simp [faultyRule, faultyEntries]) (by decide),
      fun key hkey => ?_⟩
    obtain ⟨name, entries, hmem, rfl⟩ := Directory.mem_subdirectories.1 hkey
    obtain ⟨rfl, rfl⟩ : name = "key" ∧ entries = [] := by
      simpa [faultyRule, faultyEntries] using hmem
    refine Directory.readsApart_of_own ?_ (by simp) (by decide)
    exact (Position.node?_cons hfaulty "key").trans rfl

/-- That content is loaded alike with either file of labels. Only the number of the impact of the
error key is another one. -/
theorem load_relabelled_mixedContent :
    loadCodes mixedContent (Path.join "." labelCodesFile) = .ok labelsOfText
      ∧ loadCodes relabelledContent (Path.join "." labelCodesFile) = .ok labelsOfRelabelled
      ∧ ∃ snapshot after rule changed, load mixedContent "." = .ok snapshot
        ∧ load relabelledContent "." = .ok after ∧ after.status = snapshot.status
        ∧ after.rules.rules.map Rule.uncoded = snapshot.rules.rules.map Rule.uncoded
        ∧ snapshot.rules.rules.get? "sound" = some rule
        ∧ after.rules.rules.get? "sound" = some changed
        ∧ (rule.errorKeys.get? "key").map (·.metadata.impact) = some ⟨"High", 3⟩
        ∧ (changed.errorKeys.get? "key").map (·.metadata.impact) = some ⟨"High", 4⟩ := by
  have hcodes : loadCodes mixedContent (Path.join "." labelCodesFile) = .ok labelsOfText :=
    loadCodes_here (mixedContentOf_root _) rfl rfl (Text.decode?_encode labelsText)
      ofYaml_labelsText
  have hothers : loadCodes relabelledContent (Path.join "." labelCodesFile)
      = .ok labelsOfRelabelled :=
    loadCodes_here (mixedContentOf_root _) rfl rfl (Text.decode?_encode relabelledText)
      ofYaml_relabelledText
  refine ⟨hcodes, hothers, ?_⟩
  obtain ⟨hreach, -⟩ := reach_here (mixedContentOf_root (Text.encode labelsText)) rfl (.inl rfl) rfl
    (by simp)
  obtain ⟨snapshot, h, hrule⟩ :=
    load_mixedContentOf _ (Text.decode?_encode labelsText) ofYaml_labelsText
  obtain ⟨after, h', hchanged⟩ :=
    load_mixedContentOf _ (Text.decode?_encode relabelledText) ofYaml_relabelledText
  rcases load_relabelled hcodes hothers hreach (mixedContentOf_differs _ _)
      readsApart_mixedContent with ⟨error, herror, -⟩ | ⟨_, _, hload, hload', hstatus, hrules⟩
  · rw [mixedContent, h] at herror
    cases herror
  · obtain rfl := Except.ok.inj (h.symm.trans hload)
    obtain rfl := Except.ok.inj (h'.symm.trans hload')
    exact ⟨_, _, _, _, h, h', hstatus, hrules, hrule, hchanged, rfl, rfl⟩

/-! ## A rule that reads the labels -/

/-- A content in which the reason of a rule is a link to the file of the labels. -/
def aliasedContent (bytes : List UInt8) : World := .ofPlaces [] [
  (["config.yaml"], .file bytes),
  (["external", "rule", "plugin.yaml"], .file []),
  (["external", "rule", "reason.md"], .link "../../config.yaml"),
  (["internal"], .directory [])]

/-- The directory of the external rules of that content. -/
def aliasedExternal : Directory where
  place := ["external"]
  links := World.maxLinks
  path := Path.join "." "external"
  entries := [("rule", .directory [("plugin.yaml", .file []),
    ("reason.md", .link "../../config.yaml")])]

/-- The directory of that rule. -/
def aliasedRule : Directory where
  place := ["rule", "external"]
  links := World.maxLinks
  path := aliasedExternal.pathOf "rule"
  entries := [("plugin.yaml", .file []), ("reason.md", .link "../../config.yaml")]

section Aliased

variable (bytes : List UInt8)

theorem aliasedContent_root : (aliasedContent bytes).root = .directory [
    ("config.yaml", .file bytes), ("external", aliasedExternal.node),
    ("internal", .directory [])] := rfl

theorem aliasedRule_node : aliasedRule.toPosition.node? (aliasedContent bytes).root
    = some (.directory aliasedRule.entries) := rfl

theorem sequence_aliasedContent :
    sequence (aliasedContent bytes) "." = [(.external, aliasedRule)] := by
  have hrule : aliasedRule.isRule (aliasedContent bytes).root = true :=
    Directory.isRule_of_find? (aliasedRule_node bytes) (by decide) rfl
  have hexternal : found (aliasedContent bytes) "." .external = [aliasedRule] := by
    have hopen := openDirectory_here (aliasedContent_root bytes) rfl .external rfl
    rw [found_eq hopen]
    exact Directory.rules_of_single (Directory.subdirectories_of_single rfl) hrule
  have hinternal : found (aliasedContent bytes) "." .internal = [] := by
    have hopen := openDirectory_here (aliasedContent_root bytes) rfl .internal rfl
    rw [found_eq hopen]
    exact Directory.rules_of_none rfl
  rw [sequence_eq, hexternal, hinternal]
  rfl

/-- The reason is read from the file of the labels. -/
theorem text?_aliasedRule :
    aliasedRule.text? (aliasedContent bytes).root reasonFile = some (Text.decodeLenient bytes) := by
  have hfollow : World.follow (aliasedContent bytes).root aliasedRule.toPosition [reasonFile]
      = .ok ⟨["config.yaml"], 39⟩ := by
    rw [World.follow_cons]
    show World.follow _ ⟨["rule", "external"], 39⟩ ["..", "..", "config.yaml"] = _
    rw [World.follow_cons]
    show World.follow _ ⟨["external"], 39⟩ ["..", "config.yaml"] = _
    rw [World.follow_cons]
    show World.follow _ ⟨[], 39⟩ ["config.yaml"] = _
    rw [World.follow_cons]
    show World.follow _ ⟨["config.yaml"], 39⟩ [] = _
    exact World.follow_nil _ _
  unfold Directory.text? Directory.resolve?
  rw [if_pos (by decide), hfollow]
  rfl

theorem load_aliasedRule : ∃ rule, Rule.load (aliasedContent bytes).root {} aliasedRule = .ok rule
    ∧ rule.texts.reason = Text.decodeLenient bytes := by
  have hplugin : aliasedRule.text? (aliasedContent bytes).root pluginFile = some "" := by
    have hempty : Text.decodeLenient [] = "" := Text.decodeLenient_encode ""
    rw [Directory.text?_of_find? (aliasedRule_node bytes) (by decide) (by decide) rfl, hempty]
  have hkeys : aliasedRule.subdirectories = [] := Directory.subdirectories_of_none rfl
  refine ⟨_, Rule.load_eq_ok_iff.2 ⟨"", {}, [], hplugin, rfl, ?_, rfl, rfl⟩, ?_⟩
  · rw [hkeys]
    rfl
  · show (aliasedRule.text? _ reasonFile).getD "" = _
    rw [text?_aliasedRule]
    rfl

theorem load_aliasedContent {text : String} (htext : Text.decode? bytes = some text)
    (hcodes : LabelCodes.ofYaml text = .ok {}) :
    loadCodes (aliasedContent bytes) (Path.join "." labelCodesFile) = .ok {}
      ∧ ∃ snapshot rule, load (aliasedContent bytes) "." = .ok snapshot
        ∧ snapshot.rules.rules.get? "rule" = some rule
        ∧ rule.texts.reason = Text.decodeLenient bytes := by
  have hlabels := loadCodes_here (aliasedContent_root bytes) rfl rfl htext hcodes
  have hroom : Node.extentAll [("config.yaml", .file []), ("external", aliasedExternal.node),
      ("internal", .directory [])] < Path.maxSize := by
    decide +kernel
  have h := load_here (aliasedContent_root bytes) rfl rfl htext hcodes hroom rfl rfl
  obtain ⟨rule, hrule, hreason⟩ := load_aliasedRule bytes
  refine ⟨hlabels, _, rule, h, ?_, hreason⟩
  · rw [rules_foldl, sequence_aliasedContent]
    show ((Rule.load _ {} aliasedRule).toOption.toList.getLast?).or none = _
    rw [hrule]
    rfl

end Aliased

/-- **A rule that reads the file of the labels itself has other content when it is replaced**,
though the labels stand for the same before and after. -/
theorem load_not_relabelled_aliased : ∃ position codes others snapshot after rule changed,
    loadCodes (aliasedContent []) (Path.join "." labelCodesFile) = .ok codes
      ∧ loadCodes (aliasedContent [10]) (Path.join "." labelCodesFile) = .ok others
      ∧ (aliasedContent []).reach (Path.join "." labelCodesFile) = .ok position
      ∧ World.DifferAt position.place (aliasedContent []) (aliasedContent [10])
      ∧ load (aliasedContent []) "." = .ok snapshot
      ∧ load (aliasedContent [10]) "." = .ok after
      ∧ snapshot.rules.rules.get? "rule" = some rule
      ∧ after.rules.rules.get? "rule" = some changed
      ∧ rule.texts.reason = "" ∧ changed.texts.reason = "\n" := by
  have hempty : Text.decodeLenient [] = "" := Text.decodeLenient_encode ""
  have hbreak : Text.decodeLenient [10] = "\n" := Text.decodeLenient_encode "\n"
  have hbreak' : Text.decode? [10] = some "\n" := Text.decode?_encode "\n"
  obtain ⟨hcodes, snapshot, rule, h, hrule, hreason⟩ := load_aliasedContent [] decode?_nil rfl
  obtain ⟨hothers, after, changed, h', hchanged, hreason'⟩ :=
    load_aliasedContent [10] hbreak' rfl
  obtain ⟨hreach, -⟩ := reach_here (aliasedContent_root []) rfl (.inl rfl) rfl (by simp)
  refine ⟨_, _, _, snapshot, after, rule, changed, hcodes, hothers, hreach, ⟨?_, rfl⟩, h, h', hrule,
    hchanged, hreason.trans hempty, hreason'.trans hbreak⟩
  exact .inside [] "config.yaml" [("external", _), ("internal", _)] (.here (.file [] [10]))

end Snapshot

end Rulebook
