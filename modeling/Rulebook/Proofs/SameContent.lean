import Rulebook.Proofs.Discovery
import Rulebook.Proofs.RuleLoading

/-!
# What a load of the content looks at

A load looks at few of the files that it comes by: at the labels, and in the directories below a
category at those by which rules and error keys are made. A file with another name may hold
anything, and so may whatever lies elsewhere, unless a link leads there.

So two contents are the **same to a load** (`Snapshot.SameContent`) when they have the same labels,
their categories are opened or fail to be opened alike, and from there on their directories
correspond one by one, those that correspond having the same texts in the files that are read
(`Directory.SameFiles`). The two may lie in different trees, and be listed in different orders.

That the load of both has the same result follows the walk: directories that correspond are taken
for rules alike, so the rules that are found correspond as well, and either walk breaks off where
the other one does.
-/

namespace Rulebook

open Files (Node World)

/-! ## Directories with the same files -/

namespace Directory

/-- The files that are read in the directories below a category. -/
def readFiles : List String := pluginFile :: keyFiles

/-- **A directory has the same files as another one**, which may be in another tree: as far as they
are read, they have the same texts, and the directories that the two hold correspond one by one. -/
inductive SameFiles (root other : Node) : Directory → Directory → Prop where
  /-- They have one name and one path, and so on below. -/
  | intro {directory mate : Directory} (name : directory.name = mate.name)
      (path : directory.path = mate.path)
      (text? : ∀ file ∈ readFiles, directory.text? root file = mate.text? other file)
      (held : List.Forall₂ (SameFiles root other) directory.subdirectories mate.subdirectories) :
      SameFiles root other directory mate

namespace SameFiles

variable {root other : Node} {directory mate : Directory}

theorem name (h : directory.SameFiles root other mate) : directory.name = mate.name := by
  cases h
  assumption

theorem path (h : directory.SameFiles root other mate) : directory.path = mate.path := by
  cases h
  assumption

theorem subdirectories (h : directory.SameFiles root other mate) :
    List.Forall₂ (SameFiles root other) directory.subdirectories mate.subdirectories := by
  cases h
  assumption

/-- What is read in the one directory reads like what is read in the other one. -/
theorem readsLike (h : directory.SameFiles root other mate) {files : List String}
    (hfiles : files ⊆ readFiles) : directory.ReadsLike root other files mate := by
  cases h with
  | intro name _ text? _ => exact ⟨name, fun file hfile => text? file (hfiles hfile)⟩

/-- Both are rule directories or none is. -/
theorem isRule (h : directory.SameFiles root other mate) :
    directory.isRule root = mate.isRule other := by
  have hplugin : [pluginFile] ⊆ readFiles := List.cons_subset_cons _ (List.nil_subset _)
  rw [isRule_eq, isRule_eq, (h.readsLike hplugin).text? _ (List.mem_singleton_self _)]

/-- **The rules found below the two directories correspond one by one.** -/
theorem rules (h : directory.SameFiles root other mate) :
    List.Forall₂ (SameFiles root other) (directory.rules root) (mate.rules other) :=
  forall₂_outermostBelow (fun _ _ h => h.subdirectories) (fun _ _ h => h.isRule) h

/-- A walk breaks off below both at the same directory or below none. -/
theorem unlessBarred {α : Type} (h : directory.SameFiles root other mate) (result : α) :
    directory.unlessBarred root result = mate.unlessBarred other result :=
  unlessBarred_congr (map_barred_eq (fun _ _ h => h.subdirectories) (fun _ _ h => h.isRule)
    (fun _ _ h => h.path) h) result

end SameFiles

end Directory

/-- **A rule is loaded with the same result from directories with the same files.** -/
theorem Rule.load_of_sameFiles {root other : Node} {directory mate : Directory} (codes : LabelCodes)
    (h : directory.SameFiles root other mate) : load root codes directory = load other codes mate :=
  have hrule : Directory.ruleFiles ⊆ Directory.readFiles :=
    List.cons_subset_cons _ (List.subset_cons_self ..)
  load_congr codes (h.readsLike hrule)
    (h.subdirectories.imp fun _ _ hheld => hheld.readsLike (List.subset_cons_self ..))

/-! ## Loading -/

namespace Snapshot

/-- **Two categories are opened alike**: in the same way both fail to be, or their directories have
the same files. -/
inductive OpenedAlike (root other : Node) : Except Error Directory → Except Error Directory → Prop
  where
  /-- Neither is opened. -/
  | failed (error : Error) : OpenedAlike root other (.error error) (.error error)
  /-- Both are opened. -/
  | opened {directory mate : Directory} (h : directory.SameFiles root other mate) :
    OpenedAlike root other (.ok directory) (.ok mate)

/-- **The contents at a path in two worlds are the same to a load.** They may differ in whatever a
load does not look at. -/
structure SameContent (world other : World) (path : String) : Prop where
  /-- The labels have one text, or in the same way none. -/
  labels : world.readText (Path.join path labelCodesFile)
    = other.readText (Path.join path labelCodesFile)
  /-- The categories are opened alike. -/
  category : ∀ category : Category, OpenedAlike world.root other.root
    (openDirectory world (Path.join path category.name))
    (openDirectory other (Path.join path category.name))

variable {world other : World} {path : String}

/-- Loading rules that correspond one by one has the same result. -/
theorem foldl_loadRule_of_sameFiles {root other : Node} (codes : LabelCodes) (category : Category)
    (snapshot : Snapshot) {directories mates : List Directory}
    (h : List.Forall₂ (Directory.SameFiles root other) directories mates) :
    directories.foldl (loadRule root codes category) snapshot
      = mates.foldl (loadRule other codes category) snapshot := by
  induction h generalizing snapshot with
  | nil => rfl
  | cons hsame _ ih =>
    rw [List.foldl_cons, List.foldl_cons, loadRule, loadRule, hsame.name,
      Rule.load_of_sameFiles codes hsame]
    exact ih _

/-- **Categories that are opened alike are loaded alike**, whatever was loaded before. -/
theorem loadCategory_of_openedAlike {category : Category}
    (h : OpenedAlike world.root other.root (openDirectory world (Path.join path category.name))
      (openDirectory other (Path.join path category.name)))
    (codes : LabelCodes) (snapshot : Snapshot) :
    loadCategory world path codes category snapshot
      = loadCategory other path codes category snapshot := by
  generalize hopen : openDirectory world (Path.join path category.name) = opened at h
  generalize hopen' : openDirectory other (Path.join path category.name) = opened' at h
  cases h with
  | failed error =>
    rw [loadCategory, loadCategory, hopen, hopen']
    rfl
  | opened hsame =>
    rw [loadCategory_eq hopen, loadCategory_eq hopen',
      foldl_loadRule_of_sameFiles codes category snapshot hsame.rules]
    exact hsame.unlessBarred _

/-- **The load of contents that are the same to it has the same result**, errors included. -/
theorem load_of_sameContent (h : SameContent world other path) :
    load world path = load other path := by
  rw [load, load, loadCodes, loadCodes, h.labels]
  simp only [loadCategory_of_openedAlike (h.category _)]

end Snapshot

end Rulebook
