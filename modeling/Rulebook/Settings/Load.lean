import Rulebook.Settings.Check
import Rulebook.Settings.Environment
import Rulebook.Settings.File

/-!
# Loading the settings

Settings are loaded in **layers**: a file, if there is one, and the environment over it; what
neither sets has its default. The file is the one asked for, or else the one that a variable of the
environment names, or else `config.toml` in the directory to start from when there is one. A file
that was asked for must exist.

A refusal names the setting by its place and says which layer set it: the uppermost that has
anything there.
-/

namespace Rulebook.Settings

open Rulebook.Document

/-- **Where a layer comes from.** -/
inductive Origin where
  /-- A file, its path as messages show it. -/
  | file (path : String) (format : Format)
  /-- The variables of the environment whose names start with a text. -/
  | environment (start : String)
deriving DecidableEq, Repr

/-- The name of a step. -/
def stepText : Step → String
  | .key name => name
  | .index n => toString n
  | .unnamed => "?"

/-- The names of variables are in capitals. -/
def upperCase (text : String) : String := String.ofList (text.toList.map Char.toUpper)

/-- A place as a layer would write it. -/
def Origin.placeText (origin : Origin) (place : Place) : String :=
  let names := place.reverse.map stepText
  match origin with
  | .file .. => ".".intercalate ("default" :: names)
  | .environment _ => upperCase (".".intercalate names)

/-- The words for the origin of a layer. -/
def Origin.text : Origin → String
  | .file path format => path ++ " " ++ format.name ++ " file"
  | .environment start => "`" ++ upperCase start ++ "` environment variable(s)"

/-- **A layer of settings.** -/
structure Layer where
  /-- Where it comes from. -/
  origin : Origin
  /-- What it sets. -/
  values : Value

/-- **The layers laid over one another**, the lowest one first. -/
def combine (layers : List Layer) : Value :=
  layers.foldl (fun below layer => layer.values.laidOver below) .empty

/-- The uppermost layer that has a value at a place. -/
def originAt? (layers : List Layer) (place : Place) : Option Origin :=
  (layers.reverse.find? fun layer => (layer.values.at? place).isSome).map (·.origin)

/-- The words for a refusal of a setting. -/
def faultText (layers : List Layer) (fault : Fault) : String :=
  let place := fault.place.getD []
  match originAt? layers place with
  | none => fault.cause.message
  | some origin =>
    fault.cause.message ++
      (if place.isEmpty then "" else " for key " ++ Text.quoted (origin.placeText place)) ++
      " in " ++ origin.text

/-- The failure to make settings of what was found. -/
def extractionError (reason : String) : Error :=
  .configuration (Error.withContext "Failed to extract configuration" reason) reason

/-- **Reads the settings that layers give.** -/
def ofLayers (layers : List Layer) : Except Error Settings :=
  match (Settings.read (Focus.mk (combine layers) [])).value with
  | .ok settings => pure settings
  | .error fault => throw (extractionError (faultText layers fault))

/-- **What settings are loaded from.** -/
structure Loader where
  /-- The file that was asked for. -/
  path : Option String := none
  /-- What the names of the variables start with. -/
  start : String := "RCS"

namespace Loader

/-- The variable that may name a file. -/
def fileVariable (loader : Loader) : String := loader.start ++ "_CONFIG_FILE"

/-- What the names of the variables that set something start with. -/
def variableStart (loader : Loader) : String := loader.start ++ "__"

/-- The name of the file that is used when none is asked for. -/
def defaultFile : String := "config.toml"

/-- The file that is asked for, by the loader or else by a variable that is not empty. -/
def requested (loader : Loader) (environment : List (String × String)) : Option String :=
  match loader.path with
  | some path => some path
  | none => (Table.find? loader.fileVariable environment).filter (!·.isEmpty)

/-- **The file to read**, if there is one. -/
def filePath (loader : Loader) (world : Files.World) (environment : List (String × String)) :
    Except Error (Option String) :=
  match loader.requested environment with
  | some path =>
    if world.isFile path then pure (some path)
    else throw (.configuration ("Configuration file not found: " ++ path) none)
  | none =>
    let path := Path.join world.startPath defaultFile
    pure (if world.isFile path then some path else none)

/-- A path as messages show it: from the directory to start from on, if it leads there. -/
def shownPath (world : Files.World) (path : String) : String :=
  let names := (Path.components path).filter (· != ".")
  let inner := if Path.isAbsolute path then names.drop world.start.length else names
  if Path.isAbsolute path && names.take world.start.length != world.start then path
  else "/".intercalate inner

/-- **The layer of a file.** -/
def fileLayer (world : Files.World) (path : String) : Except Error Layer :=
  let origin := Origin.file (shownPath world path) (.ofPath path)
  let refuse (reason : String) : Except Error Layer :=
    throw (extractionError (reason ++ " in " ++ origin.text))
  match world.readText path with
  | .error fault => refuse fault.message
  | .ok text =>
    match Value.ofText text (.ofPath path) with
    | .error reason => refuse reason
    | .ok values => pure ⟨origin, values⟩

/-- The layer of the environment. -/
def environmentLayer (loader : Loader) (environment : List (String × String)) : Layer :=
  ⟨.environment loader.variableStart, Environment.values loader.variableStart environment⟩

/-- **Loads the settings** and checks that they can be used. -/
def load (loader : Loader) (world : Files.World) (environment : List (String × String))
    (names : Resolver := .loopback) : Except Error Settings := do
  let below ← match ← loader.filePath world environment with
    | none => pure []
    | some path => (fun layer => [layer]) <$> fileLayer world path
  let settings ← ofLayers (below ++ [loader.environmentLayer environment])
  settings.check names
  pure settings

end Loader

end Rulebook.Settings
