import Rulebook.Command.Line

/-!
# Help

A page of help says what the program or a command does, how it is called, and what may stand on the
line, in two columns. The page of the program has a second layout with more room, in which what an
option means stands on a line of its own.
-/

namespace Rulebook.Help

/-- The name of the program. -/
def programName : String := "rcs"

/-- What the program does. -/
def about : String := "Service to provide content for OCP rules"

/-- What the word for help does. -/
def helpSummary : String := "Print this message or the help of the given subcommand(s)"

/-- A text with blanks behind it. -/
def pad (width : Nat) (text : String) : String :=
  text ++ String.ofList (List.replicate (width - text.length) ' ')

/-- **Two columns.** -/
def columns (rows : List (String × String)) : List String :=
  let width := rows.foldl (fun width row => max width row.1.length) 0
  rows.map fun row => "  " ++ pad width row.1 ++ "  " ++ row.2

/-- An option as it is written: its letter, its name and the word for its value. -/
def flagText (flag : Flag) : String :=
  let short := match flag.short? with
    | some letter => String.ofList ['-', letter, ',', ' ']
    | none => "    "
  let value := match flag.valueName? with
    | some name => " <" ++ name ++ ">"
    | none => ""
  short ++ "--" ++ flag.long ++ value

/-- The options of a part in two columns. -/
def flagLines (scope : Scope) : List String :=
  "Options:" :: columns (scope.flags.map fun flag => (flagText flag, flag.summary))

/-- The options of a part with more room. -/
def roomyFlagLines (scope : Scope) : List String :=
  "Options:" :: List.intercalate [""] (scope.flags.map fun flag =>
    ["  " ++ flagText flag, "          " ++ flag.summary])

/-- The words that choose a command. -/
def commandLines : List String :=
  "Commands:" :: columns
    (Verb.all.map (fun verb => (verb.text, verb.summary)) ++
      [(CommandLine.helpWord, helpSummary)])

/-- How a part of the line is called. -/
def usage : Topic → String
  | .scope .program => "Usage: " ++ programName ++ " [OPTIONS] [COMMAND]"
  | .scope (.command verb) => "Usage: " ++ programName ++ " " ++ verb.text ++ " [OPTIONS]"
  | .help => "Usage: " ++ programName ++ " " ++ CommandLine.helpWord ++ " [COMMAND]..."

/-- The lines of a page. -/
def lines : Topic → List String
  | .scope .program =>
    [about, "", usage (.scope .program), ""] ++ commandLines ++ [""] ++ flagLines .program
  | .scope (.command verb) =>
    [verb.summary, "", usage (.scope (.command verb)), ""] ++ flagLines (.command verb)
  | .help =>
    [helpSummary, "", usage .help, "", "Arguments:"] ++
      columns [("[COMMAND]...", "Print help for the subcommand(s)")]

/-- Lines, each with its end. -/
def joinLines (lines : List String) : String := String.join (lines.map (· ++ "\n"))

/-- **A page of help.** -/
def text (topic : Topic) : String := joinLines (lines topic)

/-- **The page of the program with more room.** -/
def roomyText : String :=
  joinLines ([about, "", usage (.scope .program), ""] ++ commandLines ++ [""] ++
    roomyFlagLines .program)

end Rulebook.Help

namespace Rulebook.CommandLine

/-- **The words for a line that asks for nothing that can be done.** -/
def Stop.message : Stop → String
  | .help _ | .version => ""
  | .unknownCommand word => "unrecognized subcommand '" ++ word ++ "'"
  | .unknownArgument word => "unexpected argument '" ++ word ++ "' found"
  | .missingValue flag => "a value is required for '" ++ Help.flagText flag ++ "'"
  | .repeated flag => "the argument '" ++ Help.flagText flag ++ "' cannot be used multiple times"
  | .unneededValue flag => "unexpected value for '" ++ Help.flagText flag ++ "'"

end Rulebook.CommandLine
