import Rulebook.Command.Run

/-!
# The program

The program reads its command line, loads the settings, makes the log ready, and runs a command. It
ends with a status, having written what the command shows to one place and what went wrong to
another. Help and the version need no settings.
-/

namespace Rulebook

/-- **How the program ends.** -/
structure Exit where
  /-- The exit status. -/
  status : UInt8
  /-- What has been shown. -/
  output : String
  /-- What went wrong, in words. -/
  complaint : String
deriving DecidableEq, Repr, Inhabited

namespace Program

/-- The name of the variables that set settings starts with this. -/
def variableStart : String := "RCS"

/-- The exit status for a command line that asks for nothing that can be done. -/
def usageStatus : UInt8 := 2

/-- **The end for a line that runs no command.** -/
def stopExit (stop : CommandLine.Stop) : Exit :=
  match stop with
  | .help topic => ⟨0, Help.text topic, ""⟩
  | .version => ⟨0, Help.programName ++ " " ++ BuildInfo.current.version ++ "\n", ""⟩
  | stop =>
    ⟨usageStatus, "", "error: " ++ stop.message ++ "\n\n" ++ Help.usage (.scope .program) ++
      "\n\nFor more information, try '--help'.\n"⟩

/-- The end for an outcome. -/
def outcomeExit (outcome : Command.Outcome) : Exit :=
  ⟨outcome.status, outcome.output,
    outcome.failure.elim "" fun failure =>
      Help.programName ++ ": " ++ failure.message ++ "\n"⟩

/-- How the settings are loaded for a command line. -/
def loader (line : CommandLine) : Settings.Loader := { path := line.config, start := variableStart }

/-- **Loads the settings, makes the log ready and runs a command.** A process that has a log already
says so in `taken`. -/
def execute (machine : Machine) (sink : Command.Sink) (line : CommandLine)
    (taken : Option String := none) : Command.Outcome :=
  match (loader line).load machine.world machine.environment machine.names with
  | .error error => ⟨"", some (.settings error)⟩
  | .ok settings =>
    match settings.startLog taken with
    | .error error => ⟨"", some (.logging error)⟩
    | .ok _ => (line.selected.report machine settings BuildInfo.current).write sink

/-- **Runs the program** on the words of its command line. -/
def run (machine : Machine) (sink : Command.Sink) (words : List String) : Exit :=
  match CommandLine.ofWords words with
  | .error stop => stopExit stop
  | .ok line => outcomeExit (execute machine sink line)

/-- The paths that a command reads. -/
def commandPaths (settings : Settings) : Command → List String
  | .startService => [settings.groups.configPath, settings.content.path,
      settings.server.apiSpecFile]
  | .printGroups => [settings.groups.configPath]
  | .printRules => [settings.content.path]
  | .check groups content => [groups.getD settings.groups.configPath,
      content.getD settings.content.path]
  | _ => []

/-- **The paths that a run reads**, as far as the files that are known tell. -/
def paths (machine : Machine) (words : List String) : List String :=
  match CommandLine.ofWords words with
  | .error _ => []
  | .ok line =>
    let loader := loader line
    let settingsPath := (loader.requested machine.environment).getD Settings.Loader.defaultFile
    match loader.load machine.world machine.environment machine.names with
    | .error _ => [settingsPath]
    | .ok settings => settingsPath :: commandPaths settings line.selected

end Program

end Rulebook
