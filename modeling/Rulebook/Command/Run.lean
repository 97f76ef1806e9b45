import Rulebook.BuildInfo
import Rulebook.Check
import Rulebook.Command.Failure
import Rulebook.Command.Help
import Rulebook.Json.Print
import Rulebook.Service.Serve
import Rulebook.Settings.Load

/-!
# Running a command

A command reads files and shows lines. What it shows and whether it fails in the end is its
**report**; nothing is written before the files have been read. A report is written to a **sink**,
and a sink that takes nothing makes the command fail at its first line.
-/

namespace Rulebook

open Rulebook.Document

/-- **What the program finds around it.** -/
structure Machine where
  /-- The files. -/
  world : Files.World
  /-- The variables of the environment. -/
  environment : List (String × String)
  /-- Whether one may listen at an endpoint. -/
  listen : Settings.Endpoint → Except IoFault Unit
  /-- How names of hosts are resolved while the settings are loaded. -/
  names : Settings.Resolver := .loopback
  /-- How they are resolved once a server is to listen. It need not be the same any more. -/
  namesAtStart : Settings.Resolver := names

namespace Command

/-- **What a command shows**, line by line, and whether it fails then. -/
structure Report where
  /-- The lines. -/
  lines : List String := []
  /-- The failure. -/
  failure : Option Failure := none
deriving Repr, Inhabited

/-- The report of a command that shows lines or fails before. -/
def Report.ofResult : Except Failure (List String) → Report
  | .ok lines => { lines }
  | .error failure => { failure := some failure }

/-- **Where lines are written to.** -/
inductive Sink where
  /-- It takes them all. -/
  | accepting
  /-- It takes none. -/
  | refusing (reason : String)
deriving DecidableEq, Repr

/-- **What has been written**, and whether the command failed. -/
structure Outcome where
  /-- What has been written. -/
  output : String
  /-- The failure. -/
  failure : Option Failure
deriving Repr, Inhabited

/-- **Writes a report.** -/
def Report.write (report : Report) : Sink → Outcome
  | .accepting => ⟨Help.joinLines report.lines, report.failure⟩
  | .refusing reason =>
    if report.lines.isEmpty then ⟨"", report.failure⟩ else ⟨"", some (.output reason)⟩

/-- **The exit status of an outcome.** -/
def Outcome.status (outcome : Outcome) : UInt8 := outcome.failure.elim 0 Failure.status

/-! ## Stages -/

/-- Loads the groups. -/
def loadGroups (world : Files.World) (path : String) : Except Failure GroupCatalog :=
  (GroupCatalog.load world path).mapError .groups

/-- Loads the content. -/
def loadContent (world : Files.World) (path : String) : Except Failure Snapshot :=
  (Snapshot.load world path).mapError .content

/-- **Makes ready to serve**: the service, and where it listens. -/
def prepare (machine : Machine) (settings : Settings) (info : BuildInfo) :
    Except Failure (Service × Settings.Endpoint) := do
  let groups ← loadGroups machine.world settings.groups.configPath
  let snapshot ← loadContent machine.world settings.content.path
  (settings.checkApiSpec machine.world).mapError .apiSpec
  let endpoint ← (settings.server.endpoint machine.namesAtStart).mapError .address
  (machine.listen endpoint).mapError .listen
  pure ({ settings, groups, snapshot, info, world := machine.world }, endpoint)

/-! ## Commands -/

/-- The settings without their secrets. -/
def configLines (settings : Settings) : List String := [Json.indented settings.masked.toData]

/-- The groups. -/
def groupLines (catalog : GroupCatalog) : List String :=
  [Json.indented (.list (catalog.groups.map Group.toData))]

/-- The rules. -/
def ruleLines (rules : Rules) : List String := [Json.compact rules.toData]

/-- The facts about the program. -/
def infoLines (info : BuildInfo) : List String :=
  info.entries.map fun entry => entry.1 ++ "\t" ++ entry.2

/-- All findings about groups and rules. -/
def findings (catalog : GroupCatalog) (rules : Rules) : List Finding :=
  Check.groups catalog ++ Check.content catalog rules

/-- How many of the findings are errors. -/
def errorCount (findings : List Finding) : Nat := findings.countP (·.isError)

/-- **The report of a check**: its findings, of which the errors make it fail. -/
def checkReport (findings : List Finding) : Report :=
  { lines := findings.map Finding.text
    failure := if errorCount findings = 0 then none else some (.findings (errorCount findings)) }

/-- Checks the groups in one file and the content at one path. -/
def checkFiles (world : Files.World) (groupsPath contentPath : String) : Report :=
  let loaded : Except Failure (List Finding) := do
    let catalog ← loadGroups world groupsPath
    let snapshot ← loadContent world contentPath
    pure (findings catalog snapshot.rules)
  match loaded with
  | .ok findings => checkReport findings
  | .error failure => { failure := some failure }

/-- **The report of a command.** A service that can be started has nothing to show. -/
def report (machine : Machine) (settings : Settings) (info : BuildInfo) : Command → Report
  | .startService => .ofResult do
    let _ ← prepare machine settings info
    pure []
  | .printHelp => { lines := [Help.roomyText] }
  | .printConfig => { lines := configLines settings }
  | .printGroups => .ofResult do
    pure (groupLines (← loadGroups machine.world settings.groups.configPath))
  | .printRules => .ofResult do
    pure (ruleLines (← loadContent machine.world settings.content.path).rules)
  | .printVersionInfo => { lines := infoLines info }
  | .check groups content =>
    checkFiles machine.world (groups.getD settings.groups.configPath)
      (content.getD settings.content.path)

end Command

end Rulebook
