import Rulebook.Proofs.Consistency
import Rulebook.Proofs.Counterpart
import Rulebook.Proofs.Utf8

/-!
# What is wrong with one rule stays with that rule

Whatever is put into the directory of a rule, as long as it remains the directory of a rule, the
other rules are loaded as before. The two loads are followed side by side, in two trees that differ
only at that directory (`Files.World.DifferAt`).

A load could notice the difference elsewhere only by reading inside the directory on another errand:
through a link, because a category is kept there, or because the directory is also an error key of
another rule. `Snapshot.StandsAlone` says that it is on no other errand there. Rules that are found
outside then read alike in both trees (`Directory.Counterpart.load_eq`), and as the walks find the
same of them in the same order (`Snapshot.filterMap_sequence_eq`), every other name is left with
what it had.
-/

namespace Rulebook

open Files (Node Position World)

/-! ## Rules outside -/

namespace Directory.Counterpart

variable {place : List String} {root other : Node} {directory mate : Directory}
  (hdiffer : Node.DifferAt place root other) {held : List (String × Node)}
  (hdirectory : root.at? place.reverse = some (.directory held))
  (hlinks : World.NoLinkInto root place)
include hdiffer hdirectory hlinks

/-- **A file outside the replaced directory has the same text**, wherever it is reached from
outside. -/
theorem text?_eq (h : directory.Counterpart root other mate) (hout : ¬ place <:+ directory.place)
    (name : String) : directory.text? root name = mate.text? other name := by
  obtain ⟨hfollow, hlast⟩ :=
    World.follow_eq_of_not_enters hdiffer (hlinks.not_enters hout h.links_le name)
  exact h.text?_eq_of_follow hfollow fun position hposition =>
    hdiffer.node?_of_directory hdirectory (hlast position hposition)

theorem readsLike (h : directory.Counterpart root other mate) (hout : ¬ place <:+ directory.place)
    (files : List String) : directory.ReadsLike root other files mate :=
  ⟨h.name, fun name _ => h.text?_eq hdiffer hdirectory hlinks hout name⟩

theorem isRule_eq (h : directory.Counterpart root other mate) (hout : ¬ place <:+ directory.place) :
    directory.isRule root = mate.isRule other := by
  rw [Directory.isRule_eq, Directory.isRule_eq, h.text?_eq hdiffer hdirectory hlinks hout]

/-- **A rule outside the replaced directory, and not around it, is loaded with the same result.** -/
theorem load_eq (h : directory.Counterpart root other mate) (hout : ¬ place <:+ directory.place)
    (haround : ¬ directory.place <:+ place) (codes : LabelCodes) :
    Rule.load root codes directory = Rule.load other codes mate := by
  have hheld := forall₂_mem (h.subdirectories hdiffer hout)
  refine Rule.load_congr codes (h.readsLike hdiffer hdirectory hlinks hout _)
    (hheld.imp fun key keyMate ⟨hkey, hmate⟩ => ?_)
  refine hmate.readsLike hdiffer hdirectory hlinks (fun hin => haround ?_) _
  rw [← place_of_suffix hout hkey.1 hin]
  obtain ⟨name, entries, -, rfl⟩ := mem_subdirectories.1 hkey.1
  exact List.suffix_cons _ _

end Directory.Counterpart

namespace Snapshot

variable {world other : World} {path : String} {place : List String}

/-! ## Opening -/

/-- **A directory that is opened outside has its counterpart** when its path does not lead
inside. -/
theorem exists_counterpart (hdiffer : World.DifferAt place world other)
    (hpath : ¬ world.LeadsInto place path) {directory : Directory}
    (h : openDirectory world path = .ok directory) (hne : directory.place ≠ place) :
    ∃ mate, openDirectory other path = .ok mate
      ∧ directory.Counterpart world.root other.root mate ∧ ¬ place <:+ directory.place := by
  obtain ⟨hreach, rfl, hnode⟩ := openDirectory_eq_ok_iff.1 h
  obtain ⟨hsame, hlast⟩ := World.reach_eq_of_not_leadsInto hdiffer hpath
  have halike := hdiffer.node.node?_alike (hlast _ hreach)
  rw [hnode] at halike
  generalize hthere : directory.toPosition.node? other.root = there at halike
  cases halike with
  | some halike =>
    cases halike with
    | directory _ others =>
      refine ⟨⟨directory.toPosition, directory.path, others⟩,
        openDirectory_eq_ok_iff.2 ⟨?_, rfl, hthere⟩,
        ⟨rfl, rfl, hnode, hthere, World.links_le_of_reach hreach⟩,
        fun hin => hlast _ hreach ⟨hin, hne⟩⟩
      rw [← hsame, hreach]

/-! ## Standing alone -/

/-- **A load reads inside a rule directory on no other errand** than to load that rule, or one
around it of which it is an error key. -/
structure StandsAlone (world : World) (path : String) (directory : Directory) : Prop where
  /-- Neither the labels nor a category is reached through it. -/
  paths : ∀ name ∈ [labelCodesFile, Category.external.name, Category.internal.name],
    ¬ world.LeadsInto directory.place (Path.join path name)
  /-- It is not the directory of a category itself. -/
  category : ∀ (category : Category) (opened : Directory),
    openDirectory world (Path.join path category.name) = .ok opened →
      opened.place ≠ directory.place
  /-- No other rule directory is found inside it. -/
  rules : ∀ entry ∈ sequence world path, directory.place <:+ entry.2.place →
    entry.2.place = directory.place
  /-- No walk that comes to it goes on inside because the path of the file about the plugin is too
  long there. -/
  room : ∀ (category : Category) (opened : Directory),
    openDirectory world (Path.join path category.name) = .ok opened →
      ∀ inner : Directory, inner.Below opened → inner.place = directory.place →
        Path.fits (inner.pathOf pluginFile) = true

section Replaced

variable {directory : Directory} (hdiffer : World.DifferAt directory.place world other)
  (hdirectory : directory.toPosition.node? world.root = some directory.node)
  (hplugin : ∃ bytes, other.root.at? (directory.names ++ [pluginFile]) = some (.file bytes))
  (hlinks : World.NoLinkInto world.root directory.place)
  (halone : StandsAlone world path directory)
  (hwalk : ∀ category : Category, ∃ opened, Walkable world path category opened)

include hplugin in
/-- What is put there is the directory of a rule. -/
theorem isRule_of_plugin {mate : Directory} (hplace : mate.place = directory.place)
    (hpath : Path.fits (mate.pathOf pluginFile) = true)
    (hnode : mate.toPosition.node? other.root = some mate.node) :
    mate.isRule other.root = true := by
  obtain ⟨bytes, hbytes⟩ := hplugin
  have hfind := Position.node?_cons hnode pluginFile
  rw [Position.node?, List.reverse_cons, hplace] at hfind
  exact Directory.isRule_of_find? hnode hpath (hfind.symm.trans hbytes)

include hdiffer hdirectory hplugin halone hwalk

/-- **A category that is walked through has its counterpart**, and whatever is come to at the place
is the directory of a rule there. -/
theorem exists_opened (category : Category) : ∃ opened mate,
    Walkable world path category opened
      ∧ openDirectory other (Path.join path category.name) = .ok mate
      ∧ opened.Counterpart world.root other.root mate ∧ ¬ directory.place <:+ opened.place
      ∧ ∀ inner : Directory, inner.Below mate → inner.place = directory.place →
        inner.isRule other.root = true := by
  obtain ⟨opened, hopened⟩ := hwalk category
  have hpath := halone.paths category.name (by cases category <;> simp)
  obtain ⟨mate, hmate, hcounterpart, hout⟩ :=
    exists_counterpart hdiffer hpath hopened.1 (halone.category category opened hopened.1)
  refine ⟨opened, mate, hopened, hmate, hcounterpart, hout, fun inner hinner hplace => ?_⟩
  have hheld : world.root.at? inner.place.reverse = some directory.node := hplace ▸ hdirectory
  have hroom :=
    halone.room category opened hopened.1 _ (hcounterpart.exists_below hinner hheld) hplace
  exact isRule_of_plugin hplugin hplace hroom (hinner.node? hcounterpart.there)

include hlinks

/-- **What else is found in a category corresponds one by one.** -/
theorem found_filter (category : Category) :
    List.Forall₂ (fun entry mate => entry.Counterpart world.root other.root mate
        ∧ ¬ directory.place <:+ entry.place)
      ((found world path category).filter (·.place ≠ directory.place))
      ((found other path category).filter (·.place ≠ directory.place)) := by
  obtain ⟨opened, mate, hopened, hmate, hcounterpart, hout, hplace⟩ :=
    exists_opened hdiffer hdirectory hplugin halone hwalk category
  rw [found_eq hopened.1, found_eq hmate]
  refine hcounterpart.outermostBelow hdiffer.node
    (fun h hout => h.isRule_eq hdiffer.node hdirectory hlinks hout) hout hplace
    fun entry hentry => ?_
  exact halone.rules (category, entry) (mem_sequence.2 (found_eq hopened.1 ▸ hentry))

/-- **A category can still be walked through.** -/
theorem exists_walkable (category : Category) : ∃ mate, Walkable other path category mate := by
  obtain ⟨opened, mate, hopened, hmate, hcounterpart, hout, hplace⟩ :=
    exists_opened hdiffer hdirectory hplugin halone hwalk category
  refine ⟨mate, hmate, List.filter_eq_nil_iff.2 fun stop hstop => ?_⟩
  suffices hrule : stop.isRule other.root = true by simp [hrule]
  have hstops : opened.stops world.root = opened.rules world.root :=
    Directory.stops_eq_rules hopened.2
  by_cases hat : stop.place = directory.place
  · have hdistinct := hcounterpart.symm.distinct hdiffer.node.distinct'
    exact hplace stop ((Directory.mem_outermostBelow hdistinct).1 hstop).1 hat
  · -- elsewhere a walk stops where it has stopped before, and that was at rule directories only
    have hsame := hcounterpart.outermostBelow (p := Directory.isStop world.root)
      (q := Directory.isStop other.root) hdiffer.node
      (fun h hout => by
        rw [Directory.isStop, Directory.isStop, h.isRule_eq hdiffer.node hdirectory hlinks hout,
          Directory.isListable, Directory.isListable, h.path]) hout
      (fun inner hinner hat => by rw [Directory.isStop, hplace inner hinner hat, Bool.true_or])
      fun entry hentry => halone.rules (category, entry)
        (mem_sequence.2 (found_eq hopened.1 ▸ hstops ▸ hentry))
    obtain ⟨entry, hentry, hmate, hentryOut⟩ :=
      exists_left_of_forall₂ hsame (List.mem_filter.2 ⟨hstop, by simpa using hat⟩)
    have hentry' : entry ∈ opened.rules world.root := hstops ▸ List.mem_of_mem_filter hentry
    have hdistinct := hcounterpart.distinct hdiffer.node.distinct
    rw [← hmate.isRule_eq hdiffer.node hdirectory hlinks hentryOut]
    exact ((Directory.mem_rules hdistinct).1 hentry').2.1

/-- **The rule itself is found again.** -/
theorem exists_entry_at {category : Category} (h : (category, directory) ∈ sequence world path) :
    ∃ mate, (category, mate) ∈ sequence other path ∧ mate.place = directory.place := by
  obtain ⟨opened, mate, hopened, hmate, hcounterpart, hout, hplace⟩ :=
    exists_opened hdiffer hdirectory hplugin halone hwalk category
  have hfound := mem_sequence.1 h
  rw [found_eq hopened.1] at hfound
  obtain ⟨foundMate, hmem, hplace⟩ := hcounterpart.exists_outermost hdiffer.node
    (fun h hout => h.isRule_eq hdiffer.node hdirectory hlinks hout) hout hplace hfound rfl
  exact ⟨foundMate, mem_sequence.2 (found_eq hmate ▸ hmem), hplace⟩

/-- **The same names are found.** -/
theorem exists_name_iff {category : Category} (h : (category, directory) ∈ sequence world path)
    (name : String) : (∃ entry ∈ sequence world path, entry.2.name = name)
      ↔ ∃ entry ∈ sequence other path, entry.2.name = name := by
  have hnames : ((sequence world path).filter (·.2.place ≠ directory.place)).map (·.2.name)
      = ((sequence other path).filter (·.2.place ≠ directory.place)).map (·.2.name) := by
    refine (congrFun₂ List.forall₂_eq_eq_eq _ _).mp ?_
    rw [List.forall₂_map_left_iff, List.forall₂_map_right_iff]
    exact (sequence_filter (found_filter hdiffer hdirectory hplugin hlinks halone hwalk)).imp
      fun _ _ h => h.2.1.name
  obtain ⟨mate, hmate, hplace⟩ := exists_entry_at hdiffer hdirectory hplugin hlinks halone hwalk h
  have hname {entry : Directory} (h : entry.place = directory.place) :
      entry.name = directory.name := congrArg (·.headD "") h
  have hmem := congrArg (name ∈ ·) hnames
  simp only [List.mem_map, List.mem_filter, decide_eq_true_eq, eq_iff_iff] at hmem
  constructor
  · rintro ⟨entry, hentry, rfl⟩
    by_cases hat : entry.2.place = directory.place
    · exact ⟨_, hmate, (hname hplace).trans (hname hat).symm⟩
    · obtain ⟨other, hother, heq⟩ := hmem.1 ⟨entry, ⟨hentry, hat⟩, rfl⟩
      exact ⟨other, hother.1, heq⟩
  · rintro ⟨entry, hentry, rfl⟩
    by_cases hat : entry.2.place = directory.place
    · exact ⟨_, h, (hname hat).symm⟩
    · obtain ⟨other, hother, heq⟩ := hmem.2 ⟨entry, ⟨hentry, hat⟩, rfl⟩
      exact ⟨other, hother.1, heq⟩

/-- **Under another name the same is left**, unless a rule around has the name. -/
theorem filterMap_sequence_eq {β : Type} (f : Category → Except Error Rule → Option β)
    (codes : LabelCodes) {name : String} (hname : name ≠ directory.name)
    (haround : ∀ entry ∈ sequence world path, entry.2.name = name →
      ¬ entry.2.place <:+ directory.place) :
    (sequence world path).filterMap (fun entry =>
        if entry.2.name = name then f entry.1 (Rule.load world.root codes entry.2) else none)
      = (sequence other path).filterMap fun entry =>
        if entry.2.name = name then f entry.1 (Rule.load other.root codes entry.2) else none := by
  have hsequence := sequence_filter (found_filter hdiffer hdirectory hplugin hlinks halone hwalk)
  have hat (entry : Category × Directory)
      (h : decide (entry.2.place ≠ directory.place) = false) : entry.2.name ≠ name := by
    have hplace : entry.2.place = directory.place := by simpa using h
    exact fun heq => hname (heq.symm.trans (congrArg (·.headD "") hplace))
  rw [← filterMap_filter_of_none (sequence world path) fun entry h => if_neg (hat entry h),
    ← filterMap_filter_of_none (sequence other path) fun entry h => if_neg (hat entry h)]
  refine filterMap_eq_of_forall₂ (forall₂_mem hsequence) ?_
  rintro ⟨category, entry⟩ ⟨_, mate⟩ ⟨⟨hmem, -⟩, rfl, hmate, hout⟩
  dsimp only
  rw [← hmate.name]
  split
  · rename_i heq
    have hnot := haround _ (List.mem_of_mem_filter hmem) heq
    rw [hmate.load_eq hdiffer.node hdirectory hlinks hout hnot]
  · rfl

end Replaced

/-! ## Isolation -/

/-- **The failure of a rule is its own.** Whatever is put into the directory of a rule that was
found, as long as it remains the directory of a rule, a load succeeds again with the same labels and
has a status for the same names. Under any other name there are the same status and the same rule as
before, unless the name is that of a rule around it. -/
theorem load_isolates {snapshot : Snapshot} (h : load world path = .ok snapshot)
    {category : Category} {directory : Directory}
    (hfound : (category, directory) ∈ sequence world path)
    (hdiffer : World.DifferAt directory.place world other)
    (hplugin : ∃ bytes, other.root.at? (directory.names ++ [pluginFile]) = some (.file bytes))
    (hlinks : World.NoLinkInto world.root directory.place)
    (halone : StandsAlone world path directory) :
    ∃ after, load other path = .ok after
      ∧ after.rules.codes = snapshot.rules.codes
      ∧ after.status.keys = snapshot.status.keys
      ∧ ∀ name, name ≠ directory.name →
        (∀ entry ∈ sequence world path, entry.2.name = name → ¬ entry.2.place <:+ directory.place) →
        after.status.get? name = snapshot.status.get? name
          ∧ after.rules.rules.get? name = snapshot.rules.rules.get? name := by
  obtain ⟨codes, hcodes, hwalk, rfl⟩ := load_eq_ok_iff.1 h
  have hdirectory := node?_of_mem_sequence hfound
  have hcodes' : loadCodes other (Path.join path labelCodesFile) = .ok codes := by
    obtain ⟨hreach, hlast⟩ :=
      World.reach_eq_of_not_leadsInto hdiffer (halone.paths labelCodesFile (by simp))
    have hread := World.readText_eq_of_reach hreach fun position hposition =>
      hdiffer.node.node?_of_directory hdirectory (hlast position hposition)
    rw [loadCodes, ← hread]
    exact hcodes
  have hwalk' := exists_walkable hdiffer hdirectory hplugin hlinks halone hwalk
  refine ⟨_, load_eq_ok_iff.2 ⟨codes, hcodes', hwalk', rfl⟩, ?_, ?_, fun name hname haround => ?_⟩
  · rw [codes_foldl, codes_foldl]
  · refine Table.keys_eq fun name => ?_
    rw [contains_status_foldl, contains_status_foldl,
      exists_name_iff hdiffer hdirectory hplugin hlinks halone hwalk hfound name]
  · rw [status_foldl, status_foldl, rules_foldl, rules_foldl]
    have hsame {β : Type} (f : Category → Except Error Rule → Option β) :=
      filterMap_sequence_eq hdiffer hdirectory hplugin hlinks halone hwalk f codes hname haround
    exact ⟨congrArg (·.getLast?.or none) (hsame fun category outcome =>
        some (outcomeStatus category outcome)).symm,
      congrArg (·.getLast?.or none) (hsame fun _ outcome => outcome.toOption).symm⟩

/-- What is put into the directory of the sound rule. -/
def unsoundEntries : List (String × Node) :=
  [("plugin.yaml", .file [255, 58]), ("key", .directory [])]

/-- The mixed content with something else in the directory of the sound rule. What stands in the
file of the labels and in that of the groups is given. -/
def unsoundWorld (labels groups : List UInt8) : World := .ofPlaces [] [
  (["config.yaml"], .file labels),
  (["external", "sound", "plugin.yaml"], .file [255, 58]),
  (["external", "sound", "key"], .directory []),
  (["internal", "faulty", "plugin.yaml"], .file []),
  (["internal", "faulty", "key"], .directory []),
  (["groups.yaml"], .file groups)]

theorem unsoundWorld_root (labels groups : List UInt8) :
    (unsoundWorld labels groups).root = .directory [("config.yaml", .file labels),
      ("external", .directory [("sound", .directory unsoundEntries)]),
      ("internal", .directory [("faulty", .directory faultyEntries)]),
      ("groups.yaml", .file groups)] := by
  simp [unsoundWorld, World.ofPlaces, Node.put, Node.replace, Node.find?, Node.bare,
    unsoundEntries, faultyEntries]

/-- That content with the same labels and the same groups. -/
def unsoundContent : World := unsoundWorld (Text.encode labelsText) (Text.encode groupsText)

theorem unsoundContent_root : unsoundContent.root = .directory [
    ("config.yaml", .file (Text.encode labelsText)),
    ("external", .directory [("sound", .directory unsoundEntries)]),
    ("internal", mixedInternal.node), ("groups.yaml", .file (Text.encode groupsText))] :=
  unsoundWorld_root (Text.encode labelsText) (Text.encode groupsText)

theorem mixedContent_root : mixedContent.root = .directory [
    ("config.yaml", .file (Text.encode labelsText)), ("external", mixedExternal.node),
    ("internal", mixedInternal.node), ("groups.yaml", .file (Text.encode groupsText))] :=
  mixedContentOf_root (Text.encode labelsText)

theorem unsoundContent_differs : World.DifferAt soundRule.place mixedContent unsoundContent where
  replaced := by
    rw [mixedContent_root, unsoundContent_root]
    have hinner := Node.ReplacedAt.inside [] "sound" []
      (.here (.directory soundRule.entries unsoundEntries))
    exact .inside [("config.yaml", _)] "external" [("internal", _), ("groups.yaml", _)] hinner
  start := rfl

/-- A path to what is sought in the root does not come to look inside a rule directory. -/
theorem not_leadsInto_mixedContent {name : String}
    (h : name ∈ [labelCodesFile, Category.external.name, Category.internal.name]) :
    ¬ mixedContent.LeadsInto soundRule.place (Path.join "." name) := by
  simp only [List.mem_cons, List.not_mem_nil, or_false] at h
  have hsought : IsSought name := by
    rcases h with rfl | rfl | rfl
    · exact .inl rfl
    · exact .inr ⟨.external, rfl⟩
    · exact .inr ⟨.internal, rfl⟩
  rw [World.LeadsInto, World.origin, (steps_here hsought).1, (steps_here hsought).2,
    mixedContent_root]
  refine World.not_enters_cons (by decide)
    (rfl : World.step _ _ _ = .ok (⟨[], World.maxLinks⟩, [])) ?_
  rcases h with rfl | rfl | rfl
  all_goals
    refine World.not_enters_cons (by decide) rfl (World.not_enters_nil fun hin => ?_)
    exact absurd hin.1 (by decide)

/-- The directory of a category of that content. -/
theorem opened_mixedContent {category : Category} {opened : Directory}
    (h : openDirectory mixedContent (Path.join "." category.name) = .ok opened) :
    opened = mixedExternal ∨ opened = mixedInternal := by
  obtain ⟨hexternal, hinternal⟩ := openDirectory_mixedContentOf (Text.encode labelsText)
  cases category with
  | external => exact .inl (Except.ok.inj (h.symm.trans hexternal))
  | internal => exact .inr (Except.ok.inj (h.symm.trans hinternal))

theorem standsAlone_soundRule : StandsAlone mixedContent "." soundRule where
  paths name hname := not_leadsInto_mixedContent hname
  category category opened hopened hplace := by
    rcases opened_mixedContent hopened with rfl | rfl
    · exact absurd hplace (by decide)
    · exact absurd hplace (by decide)
  rules entry hentry hin := by
    rw [mixedContent, sequence_mixedContentOf] at hentry
    simp only [List.mem_cons, List.not_mem_nil, or_false] at hentry
    rcases hentry with rfl | rfl
    · rfl
    · exact absurd hin (by decide)
  room category opened hopened inner hinner hplace := by
    obtain ⟨names, entries, -, -, rfl⟩ := hinner
    rcases opened_mixedContent hopened with rfl | rfl
    · obtain rfl : names = ["sound"] :=
        List.reverse_injective
          (List.append_cancel_right (show _ = ["sound"] ++ ["external"] from hplace))
      show Path.fits (Path.join (mixedExternal.pathOf "sound") pluginFile) = true
      decide
    · have hlast := congrArg List.getLast? hplace
      rw [List.getLast?_append] at hlast
      exact absurd (Option.some.inj hlast) (by decide)

/-- The faulty rule of that content has the same status, whatever the sound one has become. -/
theorem load_isolates_mixedContent : ∃ snapshot after, load mixedContent "." = .ok snapshot
    ∧ (Category.external, soundRule) ∈ sequence mixedContent "."
    ∧ World.DifferAt soundRule.place mixedContent unsoundContent
    ∧ StandsAlone mixedContent "." soundRule
    ∧ load unsoundContent "." = .ok after
    ∧ after.status.keys = snapshot.status.keys
    ∧ after.status.get? "faulty" = snapshot.status.get? "faulty" := by
  obtain ⟨snapshot, h, -⟩ :=
    load_mixedContentOf _ (Text.decode?_encode labelsText) ofYaml_labelsText
  have hsequence := sequence_mixedContentOf (Text.encode labelsText)
  have hfound : (Category.external, soundRule) ∈ sequence mixedContent "." := by
    rw [mixedContent, hsequence]
    exact List.mem_cons_self ..
  have hlinks : World.NoLinkInto mixedContent.root soundRule.place := by
    refine World.noLinkInto_of_linkPlaces fun outer name hmem => ?_
    have hnone : mixedContent.root.linkPlaces = [] := by
      rw [mixedContent_root]
      rfl
    rw [hnone] at hmem
    cases hmem
  obtain ⟨after, hafter, -, hkeys, hsame⟩ := load_isolates h hfound unsoundContent_differs
    ⟨[255, 58], by rw [unsoundContent_root]; rfl⟩ hlinks standsAlone_soundRule
  refine ⟨snapshot, after, h, hfound, unsoundContent_differs, standsAlone_soundRule, hafter, hkeys,
    (hsame "faulty" (by decide) fun entry hentry hname => ?_).1⟩
  rw [hsequence] at hentry
  simp only [List.mem_cons, List.not_mem_nil, or_false] at hentry
  rcases hentry with rfl | rfl
  · exact absurd hname (by decide)
  · decide

/-! ## A rule around the rule -/

/-- A content whose external rules are those that an internal rule holds, which are its error keys
as well. -/
def sharedContent : World := .ofPlaces [] [
  (["config.yaml"], .file []),
  (["external"], .link "internal/rule"),
  (["internal", "rule", "plugin.yaml"], .file []),
  (["internal", "rule", "generic.md"], .file [120]),
  (["internal", "rule", "reason.md"], .file [120]),
  (["internal", "rule", "key", "plugin.yaml"], .file []),
  (["internal", "rule", "key", "metadata.yaml"], .file [])]

/-- The same content without metadata of the error key. -/
def spoiltContent : World := .ofPlaces [] [
  (["config.yaml"], .file []),
  (["external"], .link "internal/rule"),
  (["internal", "rule", "plugin.yaml"], .file []),
  (["internal", "rule", "generic.md"], .file [120]),
  (["internal", "rule", "reason.md"], .file [120]),
  (["internal", "rule", "key", "plugin.yaml"], .file [])]

/-- What the directory of the error key holds. -/
def sharedKey : List (String × Node) := [("plugin.yaml", .file []), ("metadata.yaml", .file [])]

/-- What is left of it. -/
def spoiltKey : List (String × Node) := [("plugin.yaml", .file [])]

section Shared

variable (held : List (String × Node))

/-- What the internal rule holds, when the directory of its error key holds what is given. -/
def aroundEntries : List (String × Node) := [("plugin.yaml", .file []),
  ("generic.md", .file [120]), ("reason.md", .file [120]), ("key", .directory held)]

/-- The directory of the internal rules. -/
def sharedInternal : Directory where
  place := ["internal"]
  links := World.maxLinks
  path := Path.join "." "internal"
  entries := [("rule", .directory (aroundEntries held))]

/-- The directory of the internal rule. -/
def aroundRule : Directory where
  place := ["rule", "internal"]
  links := World.maxLinks
  path := (sharedInternal held).pathOf "rule"
  entries := aroundEntries held

/-- The directory of its error key. -/
def aroundKey : Directory where
  place := ["key", "rule", "internal"]
  links := World.maxLinks
  path := (aroundRule held).pathOf "key"
  entries := held

/-- The directory of the external rules, which a link leads to. -/
def sharedExternal : Directory where
  place := ["rule", "internal"]
  links := 39
  path := Path.join "." "external"
  entries := aroundEntries held

/-- The directory of the external rule, which is the error key of the internal one. -/
def innerRule : Directory where
  place := ["key", "rule", "internal"]
  links := 39
  path := (sharedExternal held).pathOf "key"
  entries := held

/-- A tree of that shape. -/
def sharedRoot : Node :=
  .directory [("config.yaml", .file []), ("external", .link "internal/rule"),
    ("internal", (sharedInternal held).node)]

theorem aroundRule_node : (aroundRule held).toPosition.node? (sharedRoot held)
    = some (.directory (aroundRule held).entries) := rfl

theorem aroundKey_node : (aroundKey held).toPosition.node? (sharedRoot held)
    = some (.directory (aroundKey held).entries) := rfl

theorem innerRule_node : (innerRule held).toPosition.node? (sharedRoot held)
    = some (.directory (innerRule held).entries) := rfl

/-- The path of the file about the plugin is the same, whatever the error key holds. -/
theorem fits_aroundRule : Path.fits ((aroundRule held).pathOf pluginFile) = true := by
  show Path.fits (Path.join (Path.join (Path.join "." "internal") "rule") pluginFile) = true
  decide

theorem fits_innerRule : Path.fits ((innerRule held).pathOf pluginFile) = true := by
  show Path.fits (Path.join (Path.join (Path.join "." "external") "key") pluginFile) = true
  decide

theorem text?_aroundRule : (aroundRule held).text? (sharedRoot held) pluginFile = some "" := by
  have hempty : Text.decodeLenient [] = "" := Text.decodeLenient_encode ""
  rw [Directory.text?_of_find? (aroundRule_node held) (by decide) (fits_aroundRule held) rfl,
    hempty]

theorem subdirectories_aroundRule : (aroundRule held).subdirectories = [aroundKey held] :=
  Directory.subdirectories_of_single rfl

end Shared

theorem sharedContent_root : sharedContent.root = sharedRoot sharedKey := rfl

theorem spoiltContent_root : spoiltContent.root = sharedRoot spoiltKey := rfl

section Shared

variable {world : World} {held : List (String × Node)} (hroot : world.root = sharedRoot held)
  (hstart : world.start = [])
include hroot hstart

theorem openDirectory_shared :
    openDirectory world (Path.join "." Category.external.name) = .ok (sharedExternal held)
      ∧ openDirectory world (Path.join "." Category.internal.name) = .ok (sharedInternal held) := by
  refine ⟨openDirectory_eq_ok_iff.2 ⟨?_, rfl, by rw [hroot]; rfl⟩,
    openDirectory_here hroot hstart .internal rfl⟩
  rw [reach_eq_follow hstart (.inr ⟨.external, rfl⟩), hroot]
  -- the link is followed first, and then the two names that it consists of
  rw [World.follow_cons]
  show World.follow _ ⟨[], 40⟩ ["external"] = _
  rw [World.follow_cons]
  show World.follow _ ⟨[], 39⟩ ["internal", "rule"] = _
  rw [World.follow_cons]
  show World.follow _ ⟨["internal"], 39⟩ ["rule"] = _
  rw [World.follow_cons]
  show World.follow _ ⟨["rule", "internal"], 39⟩ [] = _
  exact World.follow_nil _ _

theorem sequence_shared (hplugin : Node.find? pluginFile held = some (.file [])) :
    sequence world "." = [(.external, innerRule held), (.internal, aroundRule held)] := by
  obtain ⟨hexternal, hinternal⟩ := openDirectory_shared hroot hstart
  have hinner : (innerRule held).isRule world.root = true :=
    hroot ▸ Directory.isRule_of_find? (innerRule_node held) (fits_innerRule held) hplugin
  have haround : (aroundRule held).isRule world.root = true :=
    hroot ▸ Directory.isRule_of_find? (aroundRule_node held) (fits_aroundRule held) rfl
  have hheld : (sharedExternal held).subdirectories = [innerRule held] :=
    Directory.subdirectories_of_single rfl
  have hheld' : (sharedInternal held).subdirectories = [aroundRule held] :=
    Directory.subdirectories_of_single rfl
  rw [sequence_eq, found_eq hexternal, found_eq hinternal,
    Directory.rules_of_single hheld hinner, Directory.rules_of_single hheld' haround]
  rfl

end Shared

/-- As long as its error key has metadata, the internal rule is loaded. -/
theorem load_sharedContent : ∃ rule,
    Rule.load sharedContent.root {} (aroundRule sharedKey) = .ok rule := by
  have hempty : Text.decodeLenient [] = "" := Text.decodeLenient_encode ""
  have htexts : Texts.ofDirectory sharedContent.root (aroundRule sharedKey)
      = { generic := "x", reason := "x", hasReason := true } := by
    have hx : Text.decodeLenient [120] = "x" := Text.decodeLenient_encode "x"
    have hgeneric : (aroundRule sharedKey).ownText genericFile = "x" := hx
    have hreason : (aroundRule sharedKey).ownText reasonFile = "x" := hx
    rw [sharedContent_root, Texts.ofDirectory_eq (aroundRule_node _) (by decide)
      (by simp [aroundRule, aroundEntries]), hgeneric, hreason]
    rfl
  have hkeyTexts : Texts.ofDirectory sharedContent.root (aroundKey sharedKey) = {} := by
    rw [sharedContent_root, Texts.ofDirectory_eq (aroundKey_node _) (by decide)
      (by simp [aroundKey, sharedKey])]
    rfl
  have hmetadata : (aroundKey sharedKey).text? sharedContent.root metadataFile = some "" := by
    rw [sharedContent_root, Directory.text?_of_find? (aroundKey_node _) (by decide) (by decide) rfl,
      hempty]
  obtain ⟨metadata, hparsed⟩ : ∃ metadata, Metadata.ofYaml "" {} = .ok metadata := ⟨_, rfl⟩
  have hkey := ErrorKey.load_eq_ok_iff.2 ⟨"", metadata, hmetadata, hparsed, rfl⟩
  rw [hkeyTexts] at hkey
  have hkeys : ErrorKey.loadAll sharedContent.root {} (aroundRule sharedKey).subdirectories
      = .ok [("key", ⟨{}, metadata⟩)] := by
    rw [subdirectories_aroundRule, ErrorKey.loadAll_eq_ok_iff]
    exact .cons ⟨rfl, hkey⟩ .nil
  refine ⟨_, Rule.load_eq_ok_iff.2 ⟨"", {}, _, text?_aroundRule _, rfl, hkeys, ?_, rfl⟩⟩
  rw [htexts]
  rfl

/-- Without them it is not. -/
theorem load_spoiltContent : Rule.load spoiltContent.root {} (aroundRule spoiltKey)
    = .error (.missingMandatoryFile metadataFile) := by
  have hmetadata : (aroundKey spoiltKey).text? (sharedRoot spoiltKey) metadataFile = none :=
    Directory.text?_of_find?_none (aroundKey_node _) (by decide) (by decide) rfl
  rw [spoiltContent_root, Rule.load, text?_aroundRule, subdirectories_aroundRule,
    ErrorKey.loadAll, ErrorKey.load, hmetadata]
  rfl

/-- Nothing in a tree of that shape has too long a path when the error key holds nothing deep. -/
theorem walkable_shared {world : World} {held : List (String × Node)}
    (hroot : world.root = sharedRoot held) (hstart : world.start = [])
    (hexternal : (sharedExternal held).path.utf8ByteSize + (sharedExternal held).node.extent
      ≤ Path.maxSize)
    (hinternal : (sharedInternal held).path.utf8ByteSize + (sharedInternal held).node.extent
      ≤ Path.maxSize) (category : Category) :
    ∃ directory, Walkable world "." category directory := by
  obtain ⟨hopen, hopen'⟩ := openDirectory_shared hroot hstart
  cases category with
  | external => exact ⟨_, hopen, Directory.barred_of_extent hexternal⟩
  | internal => exact ⟨_, hopen', Directory.barred_of_extent hinternal⟩

theorem load_shared {world : World} {held : List (String × Node)}
    (hroot : world.root = sharedRoot held) (hstart : world.start = [])
    (hplugin : Node.find? pluginFile held = some (.file []))
    (hwalk : ∀ category, ∃ directory, Walkable world "." category directory) : ∃ snapshot,
    load world "." = .ok snapshot ∧ snapshot.status.get? "rule"
      = some (outcomeStatus .internal (Rule.load world.root {} (aroundRule held))) := by
  have hcodes := loadCodes_here hroot hstart rfl decode?_nil rfl
  refine ⟨_, load_eq_ok_iff.2 ⟨{}, hcodes, hwalk, rfl⟩, ?_⟩
  rw [status_foldl, sequence_shared hroot hstart hplugin]
  rfl

/-- **What is wrong with a rule is also wrong with a rule around it.** That content has no link into
the directory of the error key, which remains the directory of a rule. Yet the rule around it is
loaded only as long as the error key has metadata. -/
theorem load_not_isolated_around : ∃ snapshot after, load sharedContent "." = .ok snapshot
    ∧ (Category.external, innerRule sharedKey) ∈ sequence sharedContent "."
    ∧ World.DifferAt (innerRule sharedKey).place sharedContent spoiltContent
    ∧ (∃ bytes, spoiltContent.root.at? ((innerRule sharedKey).names ++ [pluginFile])
      = some (.file bytes))
    ∧ World.NoLinkInto sharedContent.root (innerRule sharedKey).place
    ∧ load spoiltContent "." = .ok after
    ∧ "rule" ≠ (innerRule sharedKey).name
    ∧ snapshot.status.get? "rule" = some ⟨.internal, true, ""⟩
    ∧ after.status.get? "rule"
      = some ⟨.internal, false, "missing mandatory file: metadata.yaml"⟩ := by
  obtain ⟨snapshot, h, hstatus⟩ := load_shared sharedContent_root rfl rfl
    (walkable_shared sharedContent_root rfl (by decide +kernel) (by decide +kernel))
  obtain ⟨after, hafter, hstatus'⟩ := load_shared spoiltContent_root rfl rfl
    (walkable_shared spoiltContent_root rfl (by decide +kernel) (by decide +kernel))
  obtain ⟨rule, hrule⟩ := load_sharedContent
  rw [hrule] at hstatus
  rw [load_spoiltContent, outcomeStatus_error] at hstatus'
  refine ⟨snapshot, after, h, ?_, ⟨?_, rfl⟩, ⟨[], rfl⟩, ?_, hafter, by decide, hstatus, hstatus'⟩
  · rw [sequence_shared sharedContent_root rfl rfl]
    exact List.mem_cons_self ..
  · have hinner := Node.ReplacedAt.inside [] "rule" [] (Node.ReplacedAt.inside
      [("plugin.yaml", .file []), ("generic.md", .file [120]), ("reason.md", .file [120])] "key" []
      (.here (.directory sharedKey spoiltKey)))
    exact .inside [("config.yaml", .file []), ("external", .link "internal/rule")] "internal" []
      hinner
  · refine World.noLinkInto_of_linkPlaces fun outer name hmem hout => ?_
    have hlinks : sharedContent.root.linkPlaces = [["external"]] := rfl
    rw [hlinks, List.mem_singleton, List.reverse_eq_iff] at hmem
    obtain ⟨rfl, rfl⟩ := List.cons.inj hmem
    have hstep : World.step sharedContent.root ⟨[], World.maxLinks⟩ "external"
        = .ok (⟨[], 39⟩, ["internal", "rule"]) := rfl
    have hinternal : World.step sharedContent.root ⟨[], 39⟩ "internal"
        = .ok (⟨["internal"], 39⟩, []) := rfl
    have hrule : World.step sharedContent.root ⟨["internal"], 39⟩ "rule"
        = .ok (⟨["rule", "internal"], 39⟩, []) := rfl
    refine World.not_enters_cons hout hstep (World.not_enters_cons hout hinternal ?_)
    refine World.not_enters_cons (by decide) hrule (World.not_enters_nil fun hin => ?_)
    exact absurd hin.1 (by decide)

end Snapshot

end Rulebook
