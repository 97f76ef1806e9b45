import Rulebook.Files.Build
import Rulebook.Program
import Rulebook.Proofs.LayeredSettings
import Rulebook.Proofs.SameContent
import Rulebook.Proofs.Tree
import Rulebook.Proofs.Utf8

/-!
# The exit status names the first stage that failed

A run of the program goes through **stages**. Whatever the command, the settings are loaded and the
log is made ready; behind these come the stages of the command, which are few or none. Whether a
stage fails is said of each stage by itself (`Stage.Fails`), from the files that it looks at and
from the settings, which tell where these are; what becomes of the other stages has no part in it.

A run ends at the first of its stages that fails, and its status is the one of that stage
(`execute_names_first`). So what else may be wrong behind the stage does not show. Nor does anything
in files that the command does not look at: a run on a machine with other such files is the same run
(`execute_congr`).
-/

namespace Rulebook.Program

open Rulebook.Command (Failure Outcome)

/-! ## Stages -/

/-- **A stage of a run.** -/
inductive Stage where
  /-- The settings are loaded. -/
  | settings
  /-- The log is made ready. -/
  | log
  /-- The groups are loaded. -/
  | groups
  /-- The content is loaded. -/
  | content
  /-- The file that describes the routes is looked for. -/
  | apiSpec
  /-- The address of the server is read. -/
  | address
  /-- The server is launched. -/
  | launch
  /-- The findings of a check are looked through for errors. -/
  | findings
deriving DecidableEq, Repr

/-- **The exit status that a stage stands for.** -/
def Stage.status : Stage → UInt8
  | .groups | .address | .launch => 1
  | .content => 2
  | .settings | .log | .apiSpec | .findings => 3

/-- The stage that a failure is of. That lines cannot be written is of none. -/
def stage? : Failure → Option Stage
  | .settings _ => some .settings
  | .logging _ => some .log
  | .groups _ => some .groups
  | .content _ => some .content
  | .apiSpec _ => some .apiSpec
  | .address _ => some .address
  | .listen _ => some .launch
  | .findings _ => some .findings
  | .output _ => none

/-- A failure has the status of its stage. -/
theorem status_of_stage? {failure : Failure} {stage : Stage} (h : stage? failure = some stage) :
    failure.status = stage.status := by
  cases failure <;> cases h <;> rfl

/-- **The stages of a command**, in the order in which they are tried. -/
def commandStages : Command → List Stage
  | .startService => [.groups, .content, .apiSpec, .address, .launch]
  | .printGroups => [.groups]
  | .printRules => [.content]
  | .check .. => [.groups, .content, .findings]
  | .printHelp | .printConfig | .printVersionInfo => []

/-- **The stages of a run**, in the order in which they are tried. -/
def stages (line : CommandLine) : List Stage := .settings :: .log :: commandStages line.selected

/-- The file of the groups that a command loads. -/
def groupsPath (settings : Settings) : Command → String
  | .check (some path) _ => path
  | _ => settings.groups.configPath

/-- The directory of the content that a command loads. -/
def contentPath (settings : Settings) : Command → String
  | .check _ (some path) => path
  | _ => settings.content.path

/-! ## When a stage fails -/

/-- **When a stage of a command fails** under settings that have been loaded. -/
def Stage.FailsUnder (machine : Machine) (taken : Option String) (settings : Settings)
    (command : Command) : Stage → Prop
  | .settings => False
  | .log => ∃ error, settings.startLog taken = .error error
  | .groups => ∃ error,
    GroupCatalog.load machine.world (groupsPath settings command) = .error error
  | .content => ∃ error, Snapshot.load machine.world (contentPath settings command) = .error error
  | .apiSpec => machine.world.isFile settings.server.apiSpecFile = false
  | .address => ∃ fault, settings.server.endpoint machine.namesAtStart = .error fault
  | .launch => ∃ endpoint, settings.server.endpoint machine.namesAtStart = .ok endpoint
    ∧ ∃ fault, machine.listen endpoint = .error fault
  | .findings => ∃ catalog, GroupCatalog.load machine.world (groupsPath settings command)
      = .ok catalog
    ∧ ∃ snapshot, Snapshot.load machine.world (contentPath settings command) = .ok snapshot
    ∧ ∃ finding ∈ Check.groups catalog ++ Check.content catalog snapshot.rules,
        finding.severity = .error

/-- The settings that a run loads. -/
def loadSettings (machine : Machine) (line : CommandLine) : Except Error Settings :=
  (loader line).load machine.world machine.environment machine.names

/-- **When a stage of a run fails.** Without settings it cannot be said of any other stage. -/
def Stage.Fails (machine : Machine) (taken : Option String) (line : CommandLine) : Stage → Prop
  | .settings => ∃ error, loadSettings machine line = .error error
  | stage => ∃ settings, loadSettings machine line = .ok settings
    ∧ stage.FailsUnder machine taken settings line.selected

section Run

variable {machine : Machine} {taken : Option String} {line : CommandLine} {settings : Settings}

/-- Once settings have been loaded, they say whether a stage fails. -/
theorem Stage.fails_iff
    (hload : loadSettings machine line = .ok settings) (stage : Stage) :
    stage.Fails machine taken line ↔ stage.FailsUnder machine taken settings line.selected := by
  have hunder (p : Settings → Prop) : (∃ other,
      loadSettings machine line = .ok other ∧ p other)
        ↔ p settings := by
    rw [hload]
    simp
  cases stage with
  | settings =>
    show (∃ error, loadSettings machine line = .error error) ↔ False
    rw [hload]
    simp
  | _ => exact hunder _

end Run

/-! ## Where a run ends -/

/-- **A run follows its stages**: it ends with a failure at the first that fails, or well behind the
last. -/
inductive Follows (fails : Stage → Prop) : List Stage → Option Failure → Prop where
  /-- No stage is left. -/
  | done : Follows fails [] none
  /-- A stage fails, and the failure is of that stage. -/
  | failed {stage : Stage} {rest : List Stage} {failure : Failure} (h : fails stage)
    (hstage : stage? failure = some stage) : Follows fails (stage :: rest) (some failure)
  /-- A stage does not fail, and the run goes on. -/
  | passed {stage : Stage} {rest : List Stage} {failure : Option Failure} (h : ¬ fails stage)
    (hrest : Follows fails rest failure) : Follows fails (stage :: rest) failure

/-- The failure of what may fail. -/
def failureOf {α : Type} : Except Failure α → Option Failure
  | .ok _ => none
  | .error failure => some failure

namespace Follows

variable {fails fails' : Stage → Prop} {all rest : List Stage} {stage : Stage}
  {failure : Option Failure} {ε α β : Type}

/-- Where a run ends depends on nothing but which stages fail. -/
theorem congr (hfails : ∀ stage, fails stage ↔ fails' stage) (h : Follows fails all failure) :
    Follows fails' all failure := by
  induction h with
  | done => exact .done
  | failed h hstage => exact .failed ((hfails _).1 h) hstage
  | passed h _ ih => exact .passed (mt (hfails _).2 h) ih

/-- **One stage, and then the others.** A step that fails exactly when its stage does, with a
failure of that stage, is followed by what comes next. -/
theorem step {result : Except ε α} {wrap : ε → Failure} {next : α → Except Failure β}
    (hfails : fails stage ↔ ∃ error, result = .error error)
    (hwrap : ∀ error, stage? (wrap error) = some stage)
    (hnext : ∀ value, result = .ok value → Follows fails rest (failureOf (next value))) :
    Follows fails (stage :: rest) (failureOf (result.mapError wrap >>= next)) := by
  cases hresult : result with
  | error error => exact .failed (hfails.2 ⟨error, hresult⟩) (hwrap error)
  | ok value =>
    refine .passed (fun h => ?_) (hnext value hresult)
    obtain ⟨error, herror⟩ := hfails.1 h
    rw [hresult] at herror
    cases herror

/-- What is made of the result in the end does not matter. -/
theorem map {result : Except Failure α} (f : α → β)
    (h : Follows fails all (failureOf result)) :
    Follows fails all (failureOf (result >>= fun value => pure (f value))) := by
  cases result <;> exact h

/-- **A run ends at a stage that fails**, if none before it does. -/
theorem of_failed {before after : List Stage} (h : Follows fails (before ++ stage :: after) failure)
    (hbefore : ∀ earlier ∈ before, ¬ fails earlier) (hstage : fails stage) :
    ∃ reason, failure = some reason ∧ stage? reason = some stage := by
  induction before with
  | nil =>
    cases h with
    | failed _ hreason => exact ⟨_, rfl, hreason⟩
    | passed h _ => exact absurd hstage h
  | cons first before ih =>
    obtain ⟨hfirst, hbefore⟩ := List.forall_mem_cons.1 hbefore
    cases h with
    | failed h _ => exact absurd h hfirst
    | passed _ hrest => exact ih hrest hbefore

/-- A run of which no stage fails ends well. -/
theorem of_passed (h : Follows fails all failure) (hall : ∀ stage ∈ all, ¬ fails stage) :
    failure = none := by
  induction h with
  | done => rfl
  | failed h _ => exact absurd h (hall _ (List.mem_cons_self ..))
  | passed _ _ ih => exact ih fun stage hstage => hall stage (List.mem_cons_of_mem _ hstage)

end Follows

/-! ## Commands follow their stages -/

section Commands

variable {machine : Machine} {taken : Option String} {settings : Settings}

/-- The failure of a report that shows lines or fails before. -/
theorem failure_ofResult (result : Except Failure (List String)) :
    (Command.Report.ofResult result).failure = failureOf result := by
  cases result <;> rfl

/-- What is looked for is a file, or its stage fails. -/
theorem isFile_eq_false_iff (world : Files.World) (settings : Settings) :
    world.isFile settings.server.apiSpecFile = false
      ↔ ∃ error, settings.checkApiSpec world = .error error := by
  unfold Settings.checkApiSpec Files.World.isFile
  dsimp only
  cases world.node settings.server.apiSpecFile with
  | error fault => exact iff_of_true rfl ⟨_, rfl⟩
  | ok node =>
    cases node with
    | file bytes => exact iff_of_false nofun nofun
    | directory entries => exact iff_of_true rfl ⟨_, rfl⟩
    | link target => exact iff_of_true rfl ⟨_, rfl⟩

/-- **Making a service ready follows its stages.** -/
theorem follows_prepare (info : BuildInfo) :
    Follows (Stage.FailsUnder machine taken settings .startService)
      (commandStages .startService) (failureOf (Command.prepare machine settings info)) := by
  refine .step .rfl (fun _ => rfl) fun catalog _ => ?_
  refine .step .rfl (fun _ => rfl) fun snapshot _ => ?_
  refine .step (isFile_eq_false_iff machine.world settings) (fun _ => rfl) fun _ _ => ?_
  refine .step .rfl (fun _ => rfl) fun endpoint hendpoint => ?_
  have hlaunch : Stage.launch.FailsUnder machine taken settings .startService
      ↔ ∃ fault, machine.listen endpoint = .error fault := by
    show (∃ other, settings.server.endpoint machine.namesAtStart = .ok other ∧ _) ↔ _
    simp [hendpoint]
  exact .step hlaunch (fun _ => rfl) fun _ _ => .done

/-- A check that finds errors fails with their number. -/
def findingsResult (findings : List Finding) : Except Failure Unit :=
  if Command.errorCount findings = 0 then .ok ()
  else .error (.findings (Command.errorCount findings))

/-- A check loads what it checks, and then fails for the errors that it finds. -/
theorem failure_checkFiles (world : Files.World) (groupsPath contentPath : String) :
    (Command.checkFiles world groupsPath contentPath).failure
      = failureOf ((GroupCatalog.load world groupsPath).mapError .groups >>= fun catalog =>
          (Snapshot.load world contentPath).mapError .content >>= fun snapshot =>
            findingsResult (Command.findings catalog snapshot.rules)) := by
  unfold Command.checkFiles Command.loadGroups Command.loadContent
  cases GroupCatalog.load world groupsPath with
  | error error => rfl
  | ok catalog =>
    cases Snapshot.load world contentPath with
    | error error => rfl
    | ok snapshot =>
      show (Command.checkReport _).failure = failureOf (findingsResult _)
      unfold findingsResult Command.checkReport
      dsimp only
      split <;> rfl

/-- There are errors among findings exactly when one is an error. -/
theorem errorCount_ne_zero_iff (findings : List Finding) :
    Command.errorCount findings ≠ 0 ↔ ∃ finding ∈ findings, finding.severity = .error := by
  rw [Command.errorCount, ← Nat.pos_iff_ne_zero, List.countP_pos_iff]
  simp [Finding.isError]

/-- **A check follows its stages.** -/
theorem follows_check (groups content : Option String) :
    Follows (Stage.FailsUnder machine taken settings (.check groups content))
      (commandStages (.check groups content))
      (Command.checkFiles machine.world (groups.getD settings.groups.configPath)
        (content.getD settings.content.path)).failure := by
  have hgroups : groupsPath settings (.check groups content)
      = groups.getD settings.groups.configPath := by
    cases groups <;> rfl
  have hcontent : contentPath settings (.check groups content)
      = content.getD settings.content.path := by
    cases groups <;> cases content <;> rfl
  rw [failure_checkFiles, ← hgroups, ← hcontent]
  refine .step .rfl (fun _ => rfl) fun catalog hcatalog => ?_
  refine .step .rfl (fun _ => rfl) fun snapshot hsnapshot => ?_
  have hfindings : Stage.findings.FailsUnder machine taken settings (.check groups content)
      ↔ Command.errorCount (Command.findings catalog snapshot.rules) ≠ 0 := by
    rw [errorCount_ne_zero_iff]
    show (∃ other, _ = Except.ok other ∧ ∃ loaded, _ = Except.ok loaded ∧ _) ↔ _
    simp [hcatalog, hsnapshot, Command.findings]
  unfold findingsResult
  split
  · exact .passed (mt hfindings.1 (not_not_intro ‹_›)) .done
  · exact .failed (hfindings.2 ‹_›) rfl

/-- **Every command follows its stages.** -/
theorem follows_report (info : BuildInfo) (command : Command) :
    Follows (Stage.FailsUnder machine taken settings command) (commandStages command)
      (command.report machine settings info).failure := by
  cases command with
  | startService =>
    show Follows _ _ (Command.Report.ofResult _).failure
    rw [failure_ofResult]
    exact (follows_prepare info).map _
  | printGroups =>
    show Follows _ _ (Command.Report.ofResult _).failure
    rw [failure_ofResult]
    exact .step .rfl (fun _ => rfl) fun _ _ => .done
  | printRules =>
    show Follows _ _ (Command.Report.ofResult _).failure
    rw [failure_ofResult]
    exact .step .rfl (fun _ => rfl) fun _ _ => .done
  | check groups content => exact follows_check groups content
  | printHelp => exact .done
  | printConfig => exact .done
  | printVersionInfo => exact .done

/-- **Every run follows its stages.** -/
theorem follows_execute (machine : Machine) (taken : Option String) (line : CommandLine) :
    Follows (Stage.Fails machine taken line) (stages line)
      (execute machine .accepting line taken).failure := by
  unfold execute stages
  rw [← loadSettings]
  cases hload : loadSettings machine line with
  | error error => exact .failed ⟨error, hload⟩ rfl
  | ok settings =>
    have hfails (stage : Stage) : stage.Fails machine taken line
        ↔ stage.FailsUnder machine taken settings line.selected := Stage.fails_iff hload stage
    refine .passed (mt (hfails .settings).1 id) (.congr (fun stage => (hfails stage).symm) ?_)
    dsimp only
    cases hlog : settings.startLog taken with
    | error error => exact .failed ⟨error, hlog⟩ rfl
    | ok =>
      refine .passed ?_ (follows_report BuildInfo.current line.selected)
      rintro ⟨error, herror⟩
      rw [hlog] at herror
      cases herror

end Commands

/-! ## Files that a command does not look at -/

/-- **A machine is the same as another one while the settings are loaded.** Of the files only that
one is looked at that may hold settings. -/
structure SameStart (line : CommandLine) (machine machine' : Machine) : Prop where
  /-- The variables are the same. -/
  environment : machine'.environment = machine.environment
  /-- Names of hosts are resolved in the same way. -/
  names : machine'.names = machine.names
  /-- Relative paths start from the same place. -/
  start : machine'.world.start = machine.world.start
  /-- The same is found where settings are looked for. -/
  file : machine'.world.node ((loader line).sought machine.world machine.environment)
    = machine.world.node ((loader line).sought machine.world machine.environment)

/-- **A machine is the same to a command as another one.** They may differ in whatever the command
does not look at. -/
structure SameTo (settings : Settings) (command : Command) (machine machine' : Machine) : Prop where
  /-- A command that loads the groups reads the same text. -/
  groups : .groups ∈ commandStages command →
    machine'.world.readText (groupsPath settings command)
      = machine.world.readText (groupsPath settings command)
  /-- A command that loads the content finds the same files there, as far as it looks at them. -/
  content : .content ∈ commandStages command →
    Snapshot.SameContent machine'.world machine.world (contentPath settings command)
  /-- A command that looks for the file that describes the routes finds the same there. -/
  apiSpec : .apiSpec ∈ commandStages command →
    machine'.world.node settings.server.apiSpecFile = machine.world.node settings.server.apiSpecFile
  /-- A command that reads the address finds it to be the same endpoint. -/
  address : .address ∈ commandStages command →
    settings.server.endpoint machine'.namesAtStart = settings.server.endpoint machine.namesAtStart
  /-- A command that launches the server may listen at the same endpoints. -/
  launch : .launch ∈ commandStages command → machine'.listen = machine.listen

section Same

variable {machine machine' : Machine} {settings : Settings} {command : Command}

/-- Groups are loaded from a text. -/
theorem loadGroups_congr {world world' : Files.World} {path : String}
    (h : world'.readText path = world.readText path) :
    GroupCatalog.load world' path = GroupCatalog.load world path := by
  unfold GroupCatalog.load
  rw [h]

/-- The file that describes the routes is judged by what is found there. -/
theorem checkApiSpec_congr {world world' : Files.World}
    (h : world'.node settings.server.apiSpecFile = world.node settings.server.apiSpecFile) :
    settings.checkApiSpec world' = settings.checkApiSpec world := by
  unfold Settings.checkApiSpec
  dsimp only
  rw [h]

/-- **What a command shows and whether it fails depends on what it looks at.** -/
theorem report_congr (h : SameTo settings command machine machine') (info : BuildInfo) :
    command.report machine' settings info = command.report machine settings info := by
  cases command with
  | startService =>
    have hgroups : GroupCatalog.load machine'.world settings.groups.configPath = _ :=
      loadGroups_congr (h.groups (by decide))
    have hcontent : Snapshot.load machine'.world settings.content.path
        = Snapshot.load machine.world settings.content.path :=
      Snapshot.load_of_sameContent (h.content (by decide))
    have hspec := checkApiSpec_congr (h.apiSpec (by decide))
    have haddress := h.address (by decide)
    have hlisten := h.launch (by decide)
    -- The service that was made ready holds its files, but only its failure is reported.
    unfold Command.report Command.prepare Command.loadGroups Command.loadContent
    simp only [hgroups, hcontent, hspec, haddress, hlisten, bind_assoc, pure_bind]
  | printGroups =>
    have hgroups : GroupCatalog.load machine'.world settings.groups.configPath = _ :=
      loadGroups_congr (h.groups (by decide))
    unfold Command.report Command.loadGroups
    rw [hgroups]
  | printRules =>
    have hcontent : Snapshot.load machine'.world settings.content.path = _ :=
      Snapshot.load_of_sameContent (h.content (by decide))
    unfold Command.report Command.loadContent
    rw [hcontent]
  | check groups content =>
    have hgroups : GroupCatalog.load machine'.world (groups.getD settings.groups.configPath) = _ :=
      loadGroups_congr (by cases groups <;> exact h.groups (.head _))
    have hcontent : Snapshot.load machine'.world (content.getD settings.content.path)
        = Snapshot.load machine.world (content.getD settings.content.path) := by
      cases groups <;> cases content <;>
        exact Snapshot.load_of_sameContent (h.content (.tail _ (.head _)))
    show Command.checkFiles _ _ _ = Command.checkFiles _ _ _
    unfold Command.checkFiles Command.loadGroups Command.loadContent
    rw [hgroups, hcontent]
  | printHelp => rfl
  | printConfig => rfl
  | printVersionInfo => rfl

end Same

/-- The settings that are loaded are the same. -/
theorem SameStart.loadSettings_eq {machine machine' : Machine} {line : CommandLine}
    (h : SameStart line machine machine') :
    loadSettings machine' line = loadSettings machine line := by
  rw [loadSettings, loadSettings, h.environment, h.names]
  exact Settings.Loader.load_of_sameFile h.start h.file machine.names

/-- **A run on a machine that is the same to its command is the same run.** -/
theorem execute_congr {machine machine' : Machine} {line : CommandLine} (sink : Command.Sink)
    (taken : Option String) (hstart : SameStart line machine machine')
    (hsame : ∀ settings, loadSettings machine line = .ok settings →
      SameTo settings line.selected machine machine') :
    execute machine' sink line taken = execute machine sink line taken := by
  unfold execute
  rw [← loadSettings, ← loadSettings, hstart.loadSettings_eq]
  cases hsettings : loadSettings machine line with
  | error error => rfl
  | ok settings =>
    dsimp only
    rw [report_congr (hsame settings hsettings)]

/-! ## The status -/

/-- **An outcome names the first stage that failed.** -/
structure NamesFirst (outcome : Outcome) (fails : Stage → Prop) (all : List Stage) : Prop where
  /-- A stage that fails when none before it does gives the status, and the failure that is told
  is of that stage. What the stages behind it would do has no part in it. -/
  failed : ∀ before stage after, all = before ++ stage :: after →
    (∀ earlier ∈ before, ¬ fails earlier) → fails stage →
      outcome.status = stage.status
        ∧ ∃ failure, outcome.failure = some failure ∧ stage? failure = some stage
  /-- When no stage fails, nothing does. -/
  passed : (∀ stage ∈ all, ¬ fails stage) → outcome.status = 0 ∧ outcome.failure = none

/-- An outcome whose failure follows the stages names the first one that failed. -/
theorem Follows.namesFirst {outcome : Outcome} {fails : Stage → Prop} {all : List Stage}
    (h : Follows fails all outcome.failure) : NamesFirst outcome fails all where
  failed before stage after hall hbefore hstage := by
    subst hall
    obtain ⟨failure, hfailure, hreason⟩ := h.of_failed hbefore hstage
    refine ⟨?_, failure, hfailure, hreason⟩
    rw [Outcome.status, hfailure]
    exact status_of_stage? hreason
  passed hall := by
    have hnone := h.of_passed hall
    refine ⟨?_, hnone⟩
    rw [Outcome.status, hnone]
    rfl

/-- **The exit status names the first stage that failed.** Whatever the machine and the command
line, and whether or not the process has a log already, a run ends at the first of its stages that
fails, with the status of that stage, and well if there is none; the program ends with this status.
A machine on which other files are found, but the same by the command, makes no difference. -/
theorem execute_names_first (machine : Machine) (taken : Option String) (line : CommandLine) :
    NamesFirst (execute machine .accepting line taken) (Stage.Fails machine taken line)
        (stages line)
      ∧ (∀ words, CommandLine.ofWords words = .ok line →
        (run machine .accepting words).status = (execute machine .accepting line).status)
      ∧ ∀ machine' : Machine, SameStart line machine machine' →
        (∀ settings, loadSettings machine line = .ok settings →
          SameTo settings line.selected machine machine') →
        execute machine' .accepting line taken = execute machine .accepting line taken := by
  refine ⟨(follows_execute machine taken line).namesFirst, fun words hwords => ?_,
    fun machine' hstart hsame => execute_congr .accepting taken hstart hsame⟩
  unfold run
  rw [hwords]
  rfl

/-! ## A machine with groups and nothing else -/

/-- An empty file of groups in the root is an empty text. -/
theorem readText_groups {world : Files.World} {entries : List (String × Files.Node)}
    (hroot : world.root = .directory entries) (hstart : world.start = [])
    (hfind : Files.Node.find? "groups_config.yaml" entries = some (.file [])) :
    world.readText "groups_config.yaml" = .ok "" := by
  have hnode : world.node "groups_config.yaml" = .ok (.file []) :=
    Files.World.node_in_root hroot hstart (by decide +kernel) (by decide) hfind nofun
  exact Files.World.readText_of_node hnode (Text.decode?_encode "")

section Variables

variable {world : Files.World} {entries : List (String × Files.Node)}
  (hroot : world.root = .directory entries) (hstart : world.start = [])
  (hfind : Files.Node.find? "config.toml" entries = none)
include hroot hstart hfind

/-- No settings are found in the root where there is no file of that name. -/
theorem node_defaultFile :
    world.node (Path.join world.startPath Settings.Loader.defaultFile) = .error .notFound
      ∧ world.isFile (Path.join world.startPath Settings.Loader.defaultFile) = false := by
  rw [Files.World.startPath, hstart]
  exact Files.World.not_in_root hroot hstart (by decide +kernel) (by decide) hfind

/-- Without a file of settings they are those of the variables, if these can be used. -/
theorem load_variables {environment : List (String × String)} (names : Settings.Resolver)
    {settings : Settings} (hnone : Table.find? "RCS_CONFIG_FILE" environment = none)
    (hread : (Settings.ofLayers [Settings.Loader.environmentLayer {} environment]).toOption
      = some settings) :
    Settings.Loader.load {} world environment names
      = settings.check names >>= fun _ => pure settings := by
  have hasks (path : String) : ¬ Settings.Loader.Asks {} environment path := by
    rintro (h | ⟨-, h, -⟩)
    · cases h
    · exact Option.some_ne_none path (h.symm.trans hnone)
  exact Settings.Loader.load_of_layers names
    (.nothing hasks (node_defaultFile hroot hstart hfind).2) rfl (eq_ok_of_toOption hread)

end Variables

/-- A world with groups, of which there are none, and nothing else. -/
def groupsOnly : Files.World := .ofPlaces [] [(["groups_config.yaml"], .file [])]

/-- The same groups next to a table of labels that is no text. Only a command that loads the content
reads it. -/
def groupsAndLabels : Files.World := .ofPlaces [] [
  (["groups_config.yaml"], .file []), (["config.yaml"], .file [255])]

theorem groupsOnly_root : groupsOnly.root = .directory [("groups_config.yaml", .file [])] := rfl

theorem groupsAndLabels_root : groupsAndLabels.root = .directory [
    ("groups_config.yaml", .file []), ("config.yaml", .file [255])] := rfl

/-- There is no content next to the groups. -/
theorem loadContent_groupsOnly :
    Snapshot.load groupsOnly "" = .error (.file "config.yaml" .notFound) := by
  have hfind : Files.Node.find? "config.yaml" [("groups_config.yaml", .file [])] = none := rfl
  have hlabels : groupsOnly.node "config.yaml" = .error .notFound :=
    (Files.World.not_in_root groupsOnly_root rfl (by decide +kernel) (by decide) hfind).1
  have hread : groupsOnly.readText (Path.join "" labelCodesFile) = .error .notFound := by
    show groupsOnly.readText "config.yaml" = _
    simp only [Files.World.readText, Files.World.readBytes, hlabels, bind, Except.bind]
  rw [Snapshot.load, Snapshot.loadCodes, hread]
  rfl

/-- The server is to listen at a host that is given by its name. -/
def namedAddress : List (String × String) := [("RCS__SERVER__ADDRESS", "localhost:8080")]

/-- The settings that say so. -/
def namedSettings : Settings := { server := { address := "localhost:8080" } }

/-- A machine with such settings. -/
def namedMachine (world : Files.World) (names : Settings.Resolver) : Machine where
  world := world
  environment := namedAddress
  listen := fun _ => .ok ()
  names := names

/-- Where there is no file of settings in the root, the settings are those of the variable, if the
name is known. -/
theorem loadSettings_namedMachine {world : Files.World} {entries : List (String × Files.Node)}
    (hroot : world.root = .directory entries) (hstart : world.start = [])
    (hfind : Files.Node.find? "config.toml" entries = none) (names : Settings.Resolver)
    (command : Command) : loadSettings (namedMachine world names) ⟨none, some command⟩
      = namedSettings.check names >>= fun _ => pure namedSettings := by
  have hnone : Table.find? "RCS_CONFIG_FILE" namedAddress = none := by decide
  have hread : (Settings.ofLayers [Settings.Loader.environmentLayer {} namedAddress]).toOption
      = some namedSettings := by decide +kernel
  exact load_variables hroot hstart hfind names hnone hread

/-- No file of settings is asked for. -/
theorem sought_namedAddress (world : Files.World) (command : Command) :
    (loader ⟨none, some command⟩).sought world namedAddress
      = Path.join world.startPath Settings.Loader.defaultFile := by
  have hnone : Settings.Loader.requested {} namedAddress = none := by decide
  show (Settings.Loader.requested {} namedAddress).getD _ = _
  rw [hnone, Option.getD_none]

/-- The machines are the same as long as there is no such file in either root. -/
theorem sameStart_namedMachine {world other : Files.World}
    {entries others : List (String × Files.Node)} (hroot : world.root = .directory entries)
    (hstart : world.start = []) (hfind : Files.Node.find? "config.toml" entries = none)
    (hroot' : other.root = .directory others) (hstart' : other.start = [])
    (hfind' : Files.Node.find? "config.toml" others = none) (names : Settings.Resolver)
    (command : Command) :
    SameStart ⟨none, some command⟩ (namedMachine world names) (namedMachine other names) where
  environment := rfl
  names := rfl
  start := hstart'.trans hstart.symm
  file := by
    have hpath : other.startPath = world.startPath := by
      rw [Files.World.startPath, hstart', Files.World.startPath, hstart]
    show other.node ((loader _).sought world namedAddress)
      = world.node ((loader _).sought world namedAddress)
    rw [sought_namedAddress, (node_defaultFile hroot hstart hfind).1, ← hpath,
      (node_defaultFile hroot' hstart' hfind').1]

/-- The name is known to a machine that calls itself so. -/
theorem check_namedSettings : namedSettings.check .loopback = .ok () :=
  eq_ok_of_toOption (by decide +kernel)

/-- A check of the content in the root. -/
def checkRoot : CommandLine := ⟨none, some (.check none (some ""))⟩

/-- A line that asks for the groups. -/
def printGroups : CommandLine := ⟨none, some .printGroups⟩

/-- Where there are groups only, a check of the content in the root ends with the status of the
content, and with that of the settings if the name of the host is not known. Groups are printed
there as they are where the labels are spoilt. -/
theorem execute_names_first_groupsOnly :
    let known := namedMachine groupsOnly .loopback
    let unknown := namedMachine groupsOnly (.ofTable [])
    (∀ stage ∈ [.settings, .log, .groups], ¬ Stage.Fails known none checkRoot stage)
      ∧ Stage.Fails known none checkRoot .content
      ∧ (execute known .accepting checkRoot).status = 2
      ∧ Stage.Fails unknown none checkRoot .settings
      ∧ (execute unknown .accepting checkRoot).status = 3
      ∧ execute (namedMachine groupsAndLabels .loopback) .accepting printGroups
        = execute known .accepting printGroups := by
  intro known unknown
  have hload (command : Command) : loadSettings known ⟨none, some command⟩ = .ok namedSettings := by
    rw [loadSettings_namedMachine groupsOnly_root rfl rfl, check_namedSettings]
    rfl
  have hfails (stage : Stage) : stage.Fails known none checkRoot
      ↔ stage.FailsUnder known none namedSettings checkRoot.selected :=
    Stage.fails_iff (hload _) stage
  have hbefore : ∀ stage ∈ [.settings, .log, .groups],
      ¬ Stage.Fails known none checkRoot stage := by
    have hcatalog : GroupCatalog.load groupsOnly "groups_config.yaml" = .ok ∅ := by
      rw [GroupCatalog.load, readText_groups groupsOnly_root rfl rfl]
      rfl
    simp only [List.forall_mem_cons, hfails]
    refine ⟨id, ?_, ?_, nofun⟩
    · rintro ⟨error, herror⟩
      cases herror
    · rintro ⟨error, herror⟩
      cases hcatalog.symm.trans herror
  have hcontent : Stage.Fails known none checkRoot .content :=
    (hfails .content).2 ⟨_, loadContent_groupsOnly⟩
  have hsettings : Stage.Fails unknown none checkRoot .settings := by
    have hcheck : (namedSettings.check (.ofTable [])).toOption = none := by decide +kernel
    show ∃ error, loadSettings unknown checkRoot = .error error
    rw [checkRoot, loadSettings_namedMachine groupsOnly_root rfl rfl]
    cases hresult : namedSettings.check (.ofTable []) with
    | error error => exact ⟨error, rfl⟩
    | ok result =>
      rw [hresult] at hcheck
      cases hcheck
  obtain ⟨hnames, -, -⟩ := execute_names_first known none checkRoot
  obtain ⟨hnames', -, -⟩ := execute_names_first unknown none checkRoot
  obtain ⟨-, -, hsame⟩ := execute_names_first known none printGroups
  refine ⟨hbefore, hcontent, (hnames.failed _ .content [.findings] rfl hbefore hcontent).1,
    hsettings, (hnames'.failed [] .settings _ rfl nofun hsettings).1,
    hsame (namedMachine groupsAndLabels .loopback)
      (sameStart_namedMachine groupsOnly_root rfl rfl groupsAndLabels_root rfl rfl _ _) ?_⟩
  rintro settings hsettings
  obtain rfl := Except.ok.inj ((hload .printGroups).symm.trans hsettings)
  -- Nothing but the groups is looked at when they are printed.
  have honly {stage : Stage} (hstage : stage ≠ .groups) :
      stage ∉ commandStages printGroups.selected := fun h => hstage (List.mem_singleton.1 h)
  refine ⟨fun _ => ?_, fun h => absurd h (honly (by decide)),
    fun h => absurd h (honly (by decide)), fun h => absurd h (honly (by decide)),
    fun h => absurd h (honly (by decide))⟩
  exact (readText_groups groupsAndLabels_root rfl rfl).trans
    (readText_groups groupsOnly_root rfl rfl).symm

end Rulebook.Program
