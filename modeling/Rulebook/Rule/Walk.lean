import Rulebook.Rule.Directory

/-!
# Walking through directories

Rules are looked for by a **walk** through the directories below a given one. A walk keeps the
directories that are open, innermost first, each with the entries that are still to come; so it is
a stack, and it can be taken one step further (`Walk.next`) or out of the innermost directory
(`Walk.leave`). A directory is opened, and its entries sorted, at the moment the walk comes to it.
Whoever wants nothing of it has to leave it.

A directory whose path is too long cannot be listed. The walk comes to it like to any other, and
breaks off at the next step, unless it has been left before.

`Walk.fold` goes through the rule directories that a walk comes to. It leaves every one of them, so
that what lies inside is not taken for another rule.
-/

namespace Rulebook

open Files (Node)

/-- Entries in another order take no more room. -/
theorem Files.Node.sizeOf_listing (entries : List (String × Node)) :
    sizeOf (listing entries) = sizeOf entries := by
  have h := List.mergeSort_perm entries byName
  rw [listing]
  generalize entries.mergeSort byName = sorted at h
  induction h with
  | nil => rfl
  | cons entry _ ih => simp [ih]
  | swap entry other rest => simp; omega
  | trans _ _ ih ih' => rw [ih, ih']

/-- **A walk**: the directories that are open, innermost first, each with what is still to come
there. -/
abbrev Walk := List Directory

namespace Walk

/-- Opens a directory. -/
def enter (directory : Directory) (walk : Walk) : Walk := directory.listed :: walk

/-- Leaves the innermost open directory and what is still to come there. -/
def leave (walk : Walk) : Walk := walk.tail

/-- **Takes a walk one step further.** It says what the walk comes to, if that is a directory, and
how the walk goes on from there. It fails when the innermost directory cannot be listed. -/
def next : Walk → Except Error (Option (Option Directory × Walk))
  | [] => pure none
  | directory :: outer =>
    if directory.isListable then
      match directory.entries with
      | [] => next outer
      | entry :: rest =>
        let walk := { directory with entries := rest } :: outer
        match directory.child? entry with
        | some child => pure (some (some child, enter child walk))
        | none => pure (some (none, walk))
    else throw directory.unlistable

section Step

variable {position : Files.Position} {path : String} (h : Path.fits path = true) (outer : Walk)
include h

/-- A directory with nothing more to come is left. -/
theorem next_nil : next (⟨position, path, []⟩ :: outer) = next outer := by
  rw [next, Directory.isListable, h]
  rfl

/-- A step at an entry: a directory is opened, anything else is passed by. -/
theorem next_entry (entry : String × Node) (rest : List (String × Node)) :
    next (⟨position, path, entry :: rest⟩ :: outer)
      = match Directory.child? ⟨position, path, rest⟩ entry with
        | some child => .ok (some (some child, enter child (⟨position, path, rest⟩ :: outer)))
        | none => .ok (some (none, ⟨position, path, rest⟩ :: outer)) := by
  rw [next, Directory.isListable, h]
  rfl

end Step

/-- No step is taken in a directory that cannot be listed. -/
theorem next_unlistable {directory : Directory} (h : directory.isListable = false) (outer : Walk) :
    next (directory :: outer) = .error directory.unlistable := by
  rw [next, h]
  rfl

/-- How much is still to come. -/
noncomputable def size : Walk → Nat
  | [] => 0
  | directory :: outer => sizeOf directory.entries + size outer

theorem size_leave_le (walk : Walk) : walk.leave.size ≤ walk.size := by
  cases walk with
  | nil => exact Nat.le_refl _
  | cons directory outer => simp [leave, size]

/-- **A step brings a walk nearer to its end.** -/
theorem size_next_lt {walk after : Walk} {found : Option Directory}
    (h : walk.next = .ok (some (found, after))) : after.size < walk.size := by
  induction walk with
  | nil => cases h
  | cons directory outer ih =>
    cases hlist : directory.isListable with
    | false =>
      rw [next_unlistable hlist] at h
      cases h
    | true =>
      obtain ⟨position, path, entries⟩ := directory
      cases entries with
      | nil =>
        rw [next_nil hlist] at h
        have := ih h
        simp only [size] at this ⊢
        omega
      | cons entry rest =>
        rw [next_entry hlist] at h
        obtain ⟨name, node⟩ := entry
        cases node with
        | directory inner =>
          obtain ⟨-, rfl⟩ := Prod.mk.inj (Option.some.inj (Except.ok.inj h))
          simp only [size, enter, Directory.listed, Node.sizeOf_listing, List.cons.sizeOf_spec,
            Prod.mk.sizeOf_spec, Node.directory.sizeOf_spec]
          omega
        | file bytes | link target =>
          obtain ⟨-, rfl⟩ := Prod.mk.inj (Option.some.inj (Except.ok.inj h))
          simp only [size, List.cons.sizeOf_spec]
          omega

/-- **Goes through the rule directories** that a walk comes to and leaves each of them. -/
def fold {σ : Type} (root : Node) (act : σ → Directory → σ) (state : σ) (walk : Walk) :
    Except Error σ :=
  match _h : walk.next with
  | .error error => .error error
  | .ok none => .ok state
  | .ok (some (none, after)) => fold root act state after
  | .ok (some (some directory, after)) =>
    -- the step has opened the directory already, so leaving it passes by all that it holds
    if directory.isRule root then fold root act (act state directory) after.leave
    else fold root act state after
termination_by walk.size
decreasing_by
  · exact size_next_lt _h
  · exact Nat.lt_of_le_of_lt after.size_leave_le (size_next_lt _h)
  · exact size_next_lt _h

end Walk

/-- The walk through what lies below the directory. -/
def Directory.walk (directory : Directory) : Walk := Walk.enter directory []

end Rulebook
