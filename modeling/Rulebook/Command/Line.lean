import Rulebook.Command.Basic
import Rulebook.Text.Split

/-!
# Reading the command line

The words of the line are read from left to right. A word that starts with two dashes names an
option, one that starts with a single dash gives the letter of one; what an option takes stands
behind an equals sign, behind the letter, or is the next word. Any other word chooses the command,
and what follows it is the command's own part. Two dashes alone say that no option follows.

A value that is the next word is looked at only when it is clear that the option is complete: when
the next option is met, or at the end of the part. The end of the command's part comes first. So of
several faults not always the leftmost one is reported.
-/

namespace Rulebook

/-- **What a command line asks for.** -/
structure CommandLine where
  /-- The file with the settings. -/
  config : Option String
  /-- The command, if one is named. -/
  command : Option Command
deriving DecidableEq, Repr

namespace CommandLine

/-- The command that is run: the service is started when none is named. -/
def selected (line : CommandLine) : Command := line.command.getD .startService

/-- **Why no command is run.** -/
inductive Stop where
  /-- Help is asked for. -/
  | help (topic : Topic)
  /-- The version is asked for. -/
  | version
  /-- There is no such command. -/
  | unknownCommand (word : String)
  /-- There is no such option, or nothing may stand there. -/
  | unknownArgument (word : String)
  /-- An option lacks its value. -/
  | missingValue (flag : Flag)
  /-- An option is given twice. -/
  | repeated (flag : Flag)
  /-- An option has a value that takes none. -/
  | unneededValue (flag : Flag)
deriving DecidableEq, Repr

/-- **What a part of the line has given so far.** -/
structure State where
  /-- Options with their values. -/
  given : List (Flag × String) := []
  /-- The option that is not complete yet, with its value if that has been met. -/
  waiting : Option (Flag × Option String) := none
deriving DecidableEq, Repr, Inhabited

namespace State

/-- The value of an option. -/
def value? (state : State) (flag : Flag) : Option String := state.given.lookup flag

/-- Takes the value of an option. It may not be empty, and not be the second one. -/
def accept (state : State) (flag : Flag) : Option String → Except Stop State
  | none => throw (.missingValue flag)
  | some value =>
    if (state.value? flag).isSome then throw (.repeated flag)
    else if value.isEmpty then throw (.missingValue flag)
    else pure { state with given := (flag, value) :: state.given }

/-- **Completes the option that is waiting.** -/
def settle (state : State) : Except Stop State :=
  match state.waiting with
  | none => pure state
  | some (flag, value) => { state with waiting := none }.accept flag value

/-- **Meets an option**, with the value that is attached to it. -/
def meet (state : State) (flag : Flag) (attached : Option String) : Except Stop State := do
  let state ← state.settle
  match flag with
  | .help | .version => pure state
  | flag =>
    match attached with
    | none => pure { state with waiting := some (flag, none) }
    | some value => state.accept flag (some value)

end State

/-! ## Words -/

/-- **A word of the line**, by its dashes. -/
inductive Word where
  /-- Two dashes alone. -/
  | endOfOptions
  /-- The name of an option, and what stands behind an equals sign. -/
  | long (name : String) (value : Option String)
  /-- The letter of an option, and what stands behind it. -/
  | short (letter : Char) (rest : List Char)
  /-- No option. -/
  | plain
deriving DecidableEq, Repr

/-- What kind of word a text is. -/
def Word.ofText (text : String) : Word :=
  match text.toList with
  | ['-', '-'] => .endOfOptions
  | '-' :: '-' :: chars =>
    let name := chars.takeWhile (· != '=')
    let value := match chars.drop name.length with
      | _ :: value => some (String.ofList value)
      | [] => none
    .long (String.ofList name) value
  | '-' :: letter :: rest => .short letter rest
  | _ => .plain

/-- The value that is attached to the letter of an option. -/
def attachedValue : List Char → Option String
  | [] => none
  | '=' :: value => some (String.ofList value)
  | value => some (String.ofList value)

/-- What an option stops the reading with, if it does. -/
def Stop.ofFlag? (scope : Scope) : Flag → Option Stop
  | .help => some (.help (.scope scope))
  | .version => some .version
  | _ => none

/-- Meets an option that may end the reading. -/
def meetFlag (scope : Scope) (state : State) (flag : Flag) (attached : Option String) :
    Except Stop State := do
  let state ← state.meet flag attached
  match Stop.ofFlag? scope flag with
  | none => pure state
  | some stop => throw stop

/-- Meets the name of an option. -/
def meetLong (scope : Scope) (state : State) (name : String) (value : Option String) :
    Except Stop State :=
  match scope.long? name with
  | none => throw (.unknownArgument ("--" ++ name))
  | some flag =>
    if flag.valueName?.isNone && value.isSome then throw (.unneededValue flag)
    else meetFlag scope state flag value

/-- Meets the letter of an option. -/
def meetShort (scope : Scope) (state : State) (letter : Char) (rest : List Char) :
    Except Stop State :=
  match scope.short? letter with
  | none => throw (.unknownArgument (String.ofList ['-', letter]))
  | some flag => meetFlag scope state flag (attachedValue rest)

/-- The word that asks for help in place of a command. -/
def helpWord : String := "help"

/-- What the words behind `helpWord` ask for. -/
def helpAbout : List String → Stop
  | [] => .help (.scope .program)
  | word :: rest =>
    let topic? := if word = helpWord then some .help
      else (Verb.ofText? word).map fun verb => Topic.scope (.command verb)
    match topic?, rest with
    | none, _ => .unknownCommand word
    | some topic, [] => .help topic
    | some _, next :: _ => .unknownCommand next

/-- What a word is that stands where it may not. -/
def strayWord (scope : Scope) (word : String) : Stop :=
  match scope with
  | .program => .unknownCommand word
  | .command _ => .unknownArgument word

/-- What a word is that stands behind two dashes alone. Nothing may stand there. -/
def strayBehindDashes (scope : Scope) (word : String) : Stop :=
  if word = helpWord || (Verb.ofText? word).isSome then .unknownArgument word
  else strayWord scope word

/-! ## The line -/

/-- **Reads a part of the line**, up to its end or to a word that chooses a command; then what
follows the word is left. -/
def scan (scope : Scope) (state : State) :
    List String → Except Stop (State × Option (Verb × List String))
  | [] => pure (state, none)
  | word :: rest =>
    match Word.ofText word with
    | .endOfOptions =>
      match rest with
      | [] => pure (state, none)
      | next :: _ => throw (strayBehindDashes scope next)
    | .long name value => do scan scope (← meetLong scope state name value) rest
    | .short letter chars => do scan scope (← meetShort scope state letter chars) rest
    | .plain =>
      match state.waiting with
      | some (flag, none) => scan scope { state with waiting := some (flag, some word) } rest
      | _ =>
        match scope with
        | .command _ => throw (strayWord scope word)
        | .program =>
          if word = helpWord then throw (helpAbout rest)
          else
            match Verb.ofText? word with
            | none => throw (strayWord scope word)
            | some verb => pure (state, some (verb, rest))

/-- The command that a word chooses, with the options of its part. -/
def commandOf (state : State) : Verb → Command
  | .startService => .startService
  | .printHelp => .printHelp
  | .printConfig => .printConfig
  | .printGroups => .printGroups
  | .printRules => .printRules
  | .printVersionInfo => .printVersionInfo
  | .check => .check (state.value? .groups) (state.value? .content)

/-- **Reads a command line**, without the name of the program. The file with the settings may be
named in either part; the command's own part counts first. -/
def ofWords (words : List String) : Except Stop CommandLine := do
  let (outer, chosen) ← scan .program {} words
  match chosen with
  | none =>
    let outer ← outer.settle
    pure ⟨outer.value? .config, none⟩
  | some (verb, rest) =>
    let inner ← (← scan (.command verb) {} rest).1.settle
    let outer ← outer.settle
    pure ⟨(inner.value? .config).or (outer.value? .config), some (commandOf inner verb)⟩

end CommandLine

end Rulebook
