import Rulebook.MessagePack
import Rulebook.Rule.Basic

/-!
# The content is written once

The rules as bytes are the same for every request, so they are written when they are asked for
first and kept in a **cell**. Requests may overlap: each looks into the cell, writes the rules if it
found nothing, puts what it wrote into the cell if the cell is still empty, and answers what is in
the cell then. `Worker` is a request between two of these steps, and `Worker.step` does one of them;
`Worker.finish` does them all, as a request does that nobody else comes in between.
-/

namespace Rulebook.Service

/-- **What has been written**, if anything has. -/
abbrev Cell := Option (List UInt8)

/-- Puts bytes into a cell that is empty. -/
def Cell.fill (cell : Cell) (bytes : List UInt8) : Cell :=
  match cell with
  | some kept => some kept
  | none => some bytes

/-- The bytes of the rules. -/
def contentBytes (rules : Rules) : List UInt8 := MessagePack.encode rules.toData

/-- **A request for the content** between two steps. -/
inductive Worker where
  /-- It has not looked into the cell yet. -/
  | waiting
  /-- It found the cell empty. -/
  | writing
  /-- It has written the rules. -/
  | written (bytes : List UInt8)
  /-- The cell holds what it will answer. -/
  | reading
  /-- It answers these bytes. -/
  | done (bytes : List UInt8)
deriving DecidableEq, Repr

namespace Worker

/-- **One step of a request.** -/
def step (rules : Rules) (cell : Cell) : Worker → Cell × Worker
  | .waiting =>
    match cell with
    | some bytes => (cell, .done bytes)
    | none => (cell, .writing)
  | .writing => (cell, .written (contentBytes rules))
  | .written bytes => (cell.fill bytes, .reading)
  | .reading => (cell, .done (cell.getD []))
  | .done bytes => (cell, .done bytes)

/-- How many steps a request takes at most. -/
def maxSteps : Nat := 4

/-- Does a number of steps without a break. -/
def steps (rules : Rules) : Nat → Cell × Worker → Cell × Worker
  | 0, state => state
  | n + 1, (cell, worker) => steps rules n (worker.step rules cell)

/-- **A request that nobody else comes in between**: the cell after it, and its answer. -/
def finish (rules : Rules) (cell : Cell) : Cell × List UInt8 :=
  match steps rules maxSteps (cell, .waiting) with
  | (cell, .done bytes) => (cell, bytes)
  | (cell, _) => (cell, [])

end Worker

end Rulebook.Service
