import Rulebook.Document.Data

/-!
# What was built

Four facts about the program itself. They are shown under two sets of names: with labels, in the
order of the fields, and as a table, for the clients of the service.
-/

namespace Rulebook

open Rulebook.Document

/-- **Facts about the program.** -/
structure BuildInfo where
  /-- Its version. -/
  version : String
  /-- When it was built. -/
  time : String
  /-- From which branch. -/
  branch : String
  /-- From which revision. -/
  commit : String
deriving DecidableEq, Repr, Inhabited

namespace BuildInfo

/-- What stands for a fact that is not known. -/
def notSet : String := "*not set*"

/-- The facts about this program. -/
def current : BuildInfo := ⟨"0.1.0", notSet, notSet, notSet⟩

/-- The facts as a table. -/
def table (info : BuildInfo) : Table String :=
  .ofList [("BuildVersion", info.version), ("BuildTime", info.time),
    ("BuildBranch", info.branch), ("BuildCommit", info.commit)]

/-- The facts with their labels. -/
def entries (info : BuildInfo) : List (String × String) :=
  [("Version:", info.version), ("Build time:", info.time), ("Branch:", info.branch),
    ("Commit:", info.commit)]

/-- The facts as plain data. -/
def toData (info : BuildInfo) : Data := .ofTable .text info.table

end BuildInfo

end Rulebook
