import Rulebook.Proofs.ContentBytes

/-!
# Requests for the content that overlap

Any number of requests for the content may be under way at once. Their steps are taken in any
order, one request at a time (`Crowd.turn`), so an order is a list of numbers, each the number of
the request whose turn it is (`Crowd.run`). Several requests may find the cell empty and write the
rules before one of them fills it.

What every turn keeps is that each request is on its way to the same answer (`Worker.Sound`): what
has been written are the bytes of the rules, and whoever is about to read finds them in the cell.
A turn of one request leaves the others sound because a cell that is full stays as it is
(`Worker.Sound.advance`). So the cell is filled once at most, and every request that completes
answers what it was filled with (`overlapping_consistent`).
-/

namespace Rulebook.Service

/-- **Requests at work on one cell.** -/
structure Crowd where
  /-- The cell. -/
  cell : Cell := none
  /-- The requests, each between two of its steps. -/
  workers : List Worker

namespace Crowd

/-- A number of requests none of which has looked into the cell, which is empty. -/
def start (count : Nat) : Crowd := { workers := List.replicate count .waiting }

/-- **The request with a number does one step.** If there is no such request, nothing happens. -/
def turn (rules : Rules) (crowd : Crowd) (number : Nat) : Crowd :=
  match crowd.workers[number]? with
  | none => crowd
  | some worker =>
    let (cell, worker) := worker.step rules crowd.cell
    { cell, workers := crowd.workers.set number worker }

/-- **Requests take turns** in the given order. -/
def run (rules : Rules) (crowd : Crowd) (order : List Nat) : Crowd := order.foldl (turn rules) crowd

/-- What is in the cell before, between and after the turns. -/
def cells (rules : Rules) : Crowd → List Nat → List Cell
  | crowd, [] => [crowd.cell]
  | crowd, number :: order => crowd.cell :: cells rules (crowd.turn rules number) order

end Crowd

/-! ## One step -/

namespace Worker

/-- **A request is on its way to answer the bytes of the rules.** -/
def Sound (rules : Rules) (cell : Cell) : Worker → Prop
  | .waiting | .writing => True
  | .written bytes => bytes = contentBytes rules
  | .reading => cell = some (contentBytes rules)
  | .done bytes => bytes = contentBytes rules ∧ cell = some (contentBytes rules)

/-- How many steps are still to be done at most. -/
def stepsLeft : Worker → Nat
  | .waiting => 4
  | .writing => 3
  | .written _ => 2
  | .reading => 1
  | .done _ => 0

variable {rules : Rules} {cell : Cell} {worker : Worker}

/-- A step brings a request nearer to its end. -/
theorem stepsLeft_step (rules : Rules) (cell : Cell) (worker : Worker) :
    (worker.step rules cell).2.stepsLeft ≤ worker.stepsLeft - 1 := by
  cases worker with
  | waiting => cases cell <;> simp [step, stepsLeft]
  | writing => exact Nat.le_refl _
  | written bytes => exact Nat.le_refl _
  | reading => exact Nat.le_refl _
  | done bytes => exact Nat.le_refl _

/-- A request with no step left has completed. -/
theorem exists_done_of_stepsLeft (h : worker.stepsLeft = 0) : ∃ bytes, worker = .done bytes := by
  cases worker with
  | done bytes => exact ⟨bytes, rfl⟩
  | _ => cases h

/-- **What a step can do to the cell**: nothing, or it fills an empty one with the rules. -/
theorem cell_step (h : worker.Sound rules cell) : (worker.step rules cell).1 = cell
    ∨ cell = none ∧ (worker.step rules cell).1 = some (contentBytes rules) := by
  cases worker with
  | waiting => cases cell <;> exact .inl rfl
  | writing => exact .inl rfl
  | written bytes =>
    cases cell with
    | none => exact .inr ⟨rfl, congrArg some h⟩
    | some kept => exact .inl rfl
  | reading => exact .inl rfl
  | done bytes => exact .inl rfl

/-- **A step keeps the request that does it sound.** -/
theorem Sound.step (h : worker.Sound rules cell) (hcell : cell.Holds rules) :
    (worker.step rules cell).2.Sound rules (worker.step rules cell).1 := by
  cases worker with
  | waiting =>
    cases cell with
    | none => trivial
    | some bytes =>
      obtain rfl := hcell bytes rfl
      exact ⟨rfl, rfl⟩
  | writing => rfl
  | written bytes =>
    cases cell with
    | none => exact congrArg some h
    | some kept => exact congrArg some (hcell kept rfl)
  | reading =>
    obtain rfl : cell = some (contentBytes rules) := h
    exact ⟨rfl, rfl⟩
  | done bytes => exact h

/-- **A step keeps all other requests sound**: if one of them relies on the cell, the cell is full
and stays as it is. -/
theorem Sound.advance {other : Worker} (hother : other.Sound rules cell)
    (h : worker.Sound rules cell) : other.Sound rules (worker.step rules cell).1 := by
  rcases cell_step h with hcell | ⟨hempty, -⟩
  · rwa [hcell]
  · subst hempty
    cases other with
    | waiting => trivial
    | writing => trivial
    | written bytes => exact hother
    | reading => cases hother
    | done bytes => cases hother.2

end Worker

/-! ## Turns -/

namespace Crowd

/-- **What every turn keeps**: the cell holds nothing but the rules, and every request is on its way
to answer them. -/
structure Sound (rules : Rules) (crowd : Crowd) : Prop where
  /-- The cell holds nothing but the rules. -/
  cell : crowd.cell.Holds rules
  /-- Every request is sound. -/
  workers : ∀ worker ∈ crowd.workers, worker.Sound rules crowd.cell

variable {rules : Rules} {crowd : Crowd}

/-- In the beginning everything is sound. -/
theorem sound_start (rules : Rules) (count : Nat) : (start count).Sound rules where
  cell := fun _ h => nomatch h
  workers worker hworker := by
    rw [List.eq_of_mem_replicate hworker]
    trivial

/-- **What a turn can do**: nothing if it is nobody's, or else one request does a step. -/
theorem turn_cases (rules : Rules) (crowd : Crowd) (number : Nat) :
    crowd.workers[number]? = none ∧ crowd.turn rules number = crowd
      ∨ ∃ worker, crowd.workers[number]? = some worker
        ∧ (crowd.turn rules number).cell = (worker.step rules crowd.cell).1
        ∧ (crowd.turn rules number).workers
          = crowd.workers.set number (worker.step rules crowd.cell).2 := by
  cases h : crowd.workers[number]? with
  | none => exact .inl ⟨rfl, by rw [turn, h]⟩
  | some worker => exact .inr ⟨worker, rfl, by rw [turn, h], by rw [turn, h]⟩

/-- **What a turn can do to the cell**: nothing, or it fills an empty one with the rules. -/
theorem cell_turn (h : crowd.Sound rules) (number : Nat) :
    (crowd.turn rules number).cell = crowd.cell
      ∨ crowd.cell = none ∧ (crowd.turn rules number).cell = some (contentBytes rules) := by
  rcases turn_cases rules crowd number with ⟨-, hturn⟩ | ⟨worker, hworker, hcell, -⟩
  · exact .inl (by rw [hturn])
  · rw [hcell]
    exact Worker.cell_step (h.workers worker (List.mem_of_getElem? hworker))

/-- **A turn keeps everything sound.** -/
theorem Sound.turn (h : crowd.Sound rules) (number : Nat) :
    (crowd.turn rules number).Sound rules where
  cell bytes hbytes := by
    rcases cell_turn h number with hcell | ⟨-, hcell⟩
    · exact h.cell bytes (hcell ▸ hbytes)
    · rw [hcell] at hbytes
      exact (Option.some.inj hbytes).symm
  workers other hother := by
    rcases turn_cases rules crowd number with ⟨-, hturn⟩ | ⟨worker, hworker, hcell, hworkers⟩
    · rw [hturn] at hother ⊢
      exact h.workers other hother
    · have hsound := h.workers worker (List.mem_of_getElem? hworker)
      rw [hworkers] at hother
      rw [hcell]
      rcases List.mem_or_eq_of_mem_set hother with hother | rfl
      · exact (h.workers other hother).advance hsound
      · exact hsound.step h.cell

/-- **Any number of turns keep everything sound.** -/
theorem Sound.run (h : crowd.Sound rules) (order : List Nat) :
    (crowd.run rules order).Sound rules := by
  induction order generalizing crowd with
  | nil => exact h
  | cons number order ih => exact ih (h.turn number)

/-! ## The cell -/

/-- **A full cell stays as it is**, however many turns there are. -/
theorem cells_of_full (h : crowd.Sound rules) (hcell : crowd.cell = some (contentBytes rules))
    (order : List Nat) : crowd.cells rules order
      = List.replicate (order.length + 1) (some (contentBytes rules)) := by
  induction order generalizing crowd with
  | nil => exact congrArg (fun cell => [cell]) hcell
  | cons number order ih =>
    have hturn : (crowd.turn rules number).cell = some (contentBytes rules) := by
      rcases cell_turn h number with hsame | ⟨hempty, -⟩
      · rw [hsame, hcell]
      · rw [hcell] at hempty
        cases hempty
    rw [cells, hcell, ih (h.turn number) hturn]
    rfl

/-- **The cell changes once at most**: it is empty for a time, and then holds the rules. -/
theorem exists_cells_eq (h : crowd.Sound rules) (order : List Nat) :
    ∃ before after, crowd.cells rules order
      = List.replicate before none ++ List.replicate after (some (contentBytes rules)) := by
  induction order generalizing crowd with
  | nil =>
    cases hcell : crowd.cell with
    | none => exact ⟨1, 0, congrArg (fun cell => [cell]) hcell⟩
    | some bytes =>
      obtain rfl := h.cell bytes hcell
      exact ⟨0, 1, cells_of_full h hcell []⟩
  | cons number order ih =>
    cases hcell : crowd.cell with
    | none =>
      obtain ⟨before, after, hcells⟩ := ih (h.turn number)
      exact ⟨before + 1, after, by rw [cells, hcell, hcells]; rfl⟩
    | some bytes =>
      obtain rfl := h.cell bytes hcell
      exact ⟨0, order.length + 2, cells_of_full h hcell (number :: order)⟩

/-! ## Completion -/

/-- A turn brings the request whose turn it is nearer to its end, and no other one further away. -/
theorem stepsLeft_turn {number : Nat} {worker : Worker} (h : crowd.workers[number]? = some worker)
    (whose : Nat) : ∃ next, (crowd.turn rules whose).workers[number]? = some next
      ∧ next.stepsLeft ≤ worker.stepsLeft - if whose = number then 1 else 0 := by
  rcases turn_cases rules crowd whose with ⟨hnobody, hturn⟩ | ⟨actor, hactor, -, hworkers⟩
  · have hne : whose ≠ number := by
      rintro rfl
      rw [h] at hnobody
      cases hnobody
    exact ⟨worker, by rw [hturn, h], by rw [if_neg hne]; exact Nat.le_refl _⟩
  · rw [hworkers]
    by_cases heq : whose = number
    · subst heq
      obtain rfl : actor = worker := Option.some.inj (hactor.symm.trans h)
      refine ⟨_, List.getElem?_set_self (List.getElem?_eq_some_iff.1 h).1, ?_⟩
      rw [if_pos rfl]
      exact actor.stepsLeft_step rules crowd.cell
    · refine ⟨worker, by rw [List.getElem?_set_ne heq, h], ?_⟩
      rw [if_neg heq]
      exact Nat.le_refl _

/-- **A request completes** when it has had as many turns as it has steps left, whatever the others
do in between. -/
theorem exists_done_run {number : Nat} {worker : Worker} (h : crowd.workers[number]? = some worker)
    {order : List Nat} (hturns : worker.stepsLeft ≤ order.count number) :
    ∃ bytes, (crowd.run rules order).workers[number]? = some (.done bytes) := by
  induction order generalizing crowd worker with
  | nil =>
    obtain ⟨bytes, rfl⟩ := Worker.exists_done_of_stepsLeft (Nat.le_zero.1 hturns)
    exact ⟨bytes, h⟩
  | cons whose order ih =>
    obtain ⟨next, hnext, hleft⟩ : ∃ next, (crowd.turn rules whose).workers[number]? = some next
        ∧ next.stepsLeft ≤ worker.stepsLeft - if whose = number then 1 else 0 :=
      stepsLeft_turn h whose
    refine ih hnext ?_
    rw [List.count_cons] at hturns
    by_cases heq : whose = number <;> simp [heq] at hturns hleft <;> omega

end Crowd

/-- **Requests for the content that overlap agree.** Whatever the number of requests and the order
of their turns, the cell is empty for a time and holds the bytes of the rules from then on, every
request that has completed answers just these bytes, and it has completed once it has had its four
turns. -/
theorem overlapping_consistent (rules : Rules) (count : Nat) (order : List Nat) :
    (∃ before after, (Crowd.start count).cells rules order
        = List.replicate before none ++ List.replicate after (some (contentBytes rules)))
      ∧ (∀ bytes, .done bytes ∈ ((Crowd.start count).run rules order).workers →
          bytes = contentBytes rules)
      ∧ ∀ number < count, Worker.maxSteps ≤ order.count number →
          ((Crowd.start count).run rules order).workers[number]?
            = some (.done (contentBytes rules)) := by
  have hstart := Crowd.sound_start rules count
  have hanswer (bytes : List UInt8)
      (hdone : .done bytes ∈ ((Crowd.start count).run rules order).workers) :
      bytes = contentBytes rules := by
    have hsound : (Worker.done bytes).Sound rules _ := (hstart.run order).workers _ hdone
    exact hsound.1
  refine ⟨Crowd.exists_cells_eq hstart order, hanswer, fun number hnumber hturns => ?_⟩
  have hwaiting : (Crowd.start count).workers[number]? = some .waiting :=
    (List.getElem?_eq_some_iff.2 ⟨by simpa [Crowd.start] using hnumber, by simp [Crowd.start]⟩)
  obtain ⟨bytes, hdone⟩ : ∃ bytes,
      ((Crowd.start count).run rules order).workers[number]? = some (.done bytes) :=
    Crowd.exists_done_run hwaiting hturns
  rw [hdone, hanswer bytes (List.mem_of_getElem? hdone)]

/-- Three requests, of which two find the cell empty; the second of these fills it. -/
theorem overlapping_consistent_threeRequests :
    let order := [0, 1, 0, 1, 1, 0, 2, 1, 0]
    let workers := ((Crowd.start 3).run storageRules order).workers
    Worker.maxSteps ≤ order.count 0 ∧ Worker.maxSteps ≤ order.count 1
      ∧ workers[0]? = some (.done (contentBytes storageRules))
      ∧ workers[1]? = some (.done (contentBytes storageRules))
      ∧ ∀ bytes, workers[2]? = some (.done bytes) → bytes = contentBytes storageRules := by
  intro order workers
  have hfirst : Worker.maxSteps ≤ order.count 0 := by decide
  have hsecond : Worker.maxSteps ≤ order.count 1 := by decide
  obtain ⟨-, hanswer, hdone⟩ := overlapping_consistent storageRules 3 order
  exact ⟨hfirst, hsecond, hdone 0 (by decide) hfirst, hdone 1 (by decide) hsecond,
    fun bytes hthird => hanswer bytes (List.mem_of_getElem? hthird)⟩

end Rulebook.Service
