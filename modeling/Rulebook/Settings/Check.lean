import Rulebook.Files.Tree
import Rulebook.Settings.Endpoint
import Rulebook.Settings.Level

/-!
# Settings that can be used

Settings that have been read may still be of no use: the address may be none, the scheme of the
identities unknown, the level of the log none. They are checked in this order, and the first fault
is the one reported. Whether an address can be used depends on how names of hosts are resolved.

The file that describes the routes is checked apart, because only a server that starts needs it.
The log is made ready once in a process.
-/

namespace Rulebook.Settings

/-- The one scheme of identities that is known. -/
def knownAuthType : String := "xrh"

/-- **Checks that the settings can be used.** -/
def check (settings : Settings) (names : Resolver := .loopback) : Except Error Unit := do
  match settings.server.endpoint names with
  | .ok _ => pure ()
  | .error fault =>
    throw (.configuration (Error.withContext
      ("Invalid server address '" ++ settings.server.address ++ "'") fault.message)
      fault.message)
  if settings.server.authType != knownAuthType then
    throw (.configuration ("Unsupported auth type '" ++ settings.server.authType ++
      "', only 'xrh' is supported") none)
  let _ ← Level.ofText settings.logging.level

/-- **Checks that the file that describes the routes is a file.** -/
def checkApiSpec (world : Files.World) (settings : Settings) : Except Error Unit :=
  let path := settings.server.apiSpecFile
  match world.node path with
  | .error fault => .error (.file path fault)
  | .ok node =>
    if node.isFile then pure ()
    else .error (.configuration
      ("OpenAPI specification file path '" ++ path ++ "' is not a regular file") none)

/-- **Makes the log ready.** Its level must be known, and the process must not have a log yet; if
it has one, `taken` says why there cannot be another. -/
def startLog (taken : Option String) (settings : Settings) : Except Error Unit := do
  let _ ← Level.ofText settings.logging.level
  match taken with
  | none => pure ()
  | some reason => throw (.configuration ("Logging is already initialized: " ++ reason) none)

end Rulebook.Settings
