import Rulebook.Files.Build
import Rulebook.Program
import Rulebook.Service.Listen

/-!
# The command line

The program proper is a function of the words of its command line and of what it finds around it.
Here the files that it wants are read, and what it says is written. Its stages end where a network
would be needed: no socket is opened, and names of hosts are looked up in the machine's own table.
-/

namespace Rulebook.Surroundings

open Rulebook.Files (Node World)

/-- What has been found at places, and places that links lead to. -/
abbrev Found := List (List String × Node) × List (List String)

/-- Reads what a place holds, up to the first link on the way or through all of a directory. -/
partial def visit (walked rest : List String) : IO Found := do
  let path := (← IO.currentDir) / ("/" ++ "/".intercalate walked)
  match ← path.symlinkMetadata.toBaseIO with
  | .error _ => pure ([], [])
  | .ok metadata =>
    match metadata.type with
    | .symlink =>
      let target := (← IO.FS.realPath path).toString
      let leadsAnywhere ← path.pathExists
      pure ([(walked, .link target)],
        if leadsAnywhere then [Path.components target ++ rest] else [])
    | .file =>
      match ← (IO.FS.readBinFile path).toBaseIO with
      | .error _ => pure ([], [])
      | .ok bytes => pure ([(walked, .file bytes.toList)], [])
    | .dir =>
      match rest with
      | "." :: rest => visit walked rest
      | ".." :: rest => visit walked.dropLast rest
      | name :: rest =>
        let (places, links) ← visit (walked ++ [name]) rest
        pure ((walked, .directory []) :: places, links)
      | [] =>
        let mut found : Found := ([(walked, .directory [])], [])
        for entry in ← path.readDir do
          let (places, links) ← visit (walked ++ [entry.fileName]) []
          found := (found.1 ++ places, found.2 ++ links)
        pure found
    | .other => pure ([], [])

/-- Reads places and the places that links lead to. -/
partial def collect (seen : List (List String)) :
    List (List String) → IO (List (List String × Node))
  | [] => pure []
  | place :: pending => do
    if seen.contains place then collect seen pending
    else
      let (places, links) ← visit [] place
      pure (places ++ (← collect (place :: seen) (pending ++ links)))

/-- The files at paths, in a world that starts from the current directory. -/
def readWorld (paths : List String) : IO World := do
  let start := Path.components (← IO.currentDir).toString
  let places := paths.map fun path =>
    if Path.isAbsolute path then Path.components path else start ++ Path.components path
  pure (.ofPlaces start (← collect [] places))

/-- The variables of the environment. -/
def readVariables : IO (List (String × String)) := do
  match ← (IO.FS.readBinFile "/proc/self/environ").toBaseIO with
  | .error _ => pure []
  | .ok bytes =>
    let texts := Text.split '\x00' (Text.decodeLenient bytes.toList).toList
    pure (texts.filterMap fun text =>
      if text.isEmpty then none
      else
        let (name, value) := Text.cut '=' text
        some (String.ofList name, String.ofList value))

/-- A line of the table of hosts: an address and the names of the host. What follows a number sign
does not count. -/
def hostsOfLine (line : List Char) : List (String × Settings.HostAddress) :=
  let blanked := (Text.cut '#' line).1.map fun c => if c == '\t' then ' ' else c
  let words := (Text.split ' ' blanked).filter (!·.isEmpty)
  match words with
  | [] => []
  | address :: names =>
    match Settings.numericHost? address with
    | none => []
    | some host => names.map fun name => (String.ofList name, host)

/-- The resolver with the machine's own table of hosts. -/
def readNames : IO Settings.Resolver := do
  match ← (IO.FS.readBinFile "/etc/hosts").toBaseIO with
  | .error _ => pure .loopback
  | .ok bytes =>
    let lines := Text.split '\n' (Text.decodeLenient bytes.toList).toList
    pure (.ofTable (lines.flatMap hostsOfLine))

/-- An endpoint that one may listen at is not listened at here. -/
def listen (endpoint : Settings.Endpoint) : Except IoFault Unit := do
  endpoint.listen
  throw (.other "Operation not supported (os error 95)")

/-- Reads what the program wants to read: first where the settings are, then what they name. -/
def readMachine (words : List String) : IO Machine := do
  let environment ← readVariables
  let names ← readNames
  let machine : Machine := { world := ← readWorld [], environment, listen, names }
  let machine := { machine with world := ← readWorld (Program.paths machine words) }
  pure { machine with world := ← readWorld (Program.paths machine words) }

end Rulebook.Surroundings

open Rulebook in
/-- **Runs the program.** -/
def main (words : List String) : IO UInt32 := do
  let machine ← Surroundings.readMachine words
  let exit := Program.run machine .accepting words
  let output ← IO.getStdout
  let exit ← match ← (do output.putStr exit.output; output.flush : IO Unit).toBaseIO with
    | .ok _ => pure exit
    | .error error => pure (Program.run machine (.refusing (toString error)) words)
  IO.eprint exit.complaint
  pure exit.status.toUInt32
