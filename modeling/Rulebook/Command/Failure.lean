import Rulebook.Error

/-!
# How commands fail

A command goes through stages, and the first stage that fails ends it. Each failure says which stage
it was, in words and by the **exit status** of the program: one for the groups and the server, two
for the content, and three for anything else.
-/

namespace Rulebook.Command

/-- **Why a command failed.** -/
inductive Failure where
  /-- The settings cannot be loaded. -/
  | settings (error : Error)
  /-- The log cannot be made ready. -/
  | logging (error : Error)
  /-- The groups cannot be loaded. -/
  | groups (error : Error)
  /-- The content cannot be loaded. -/
  | content (error : Error)
  /-- The file that describes the routes is no file. -/
  | apiSpec (error : Error)
  /-- There is no such address. -/
  | address (fault : IoFault)
  /-- The server cannot listen at its address. -/
  | listen (fault : IoFault)
  /-- What the command shows cannot be written. -/
  | output (reason : String)
  /-- The check found errors. -/
  | findings (count : Nat)
deriving DecidableEq, Repr

namespace Failure

/-- **The exit status for a failure.** -/
def status : Failure → UInt8
  | .groups _ | .address _ | .listen _ => 1
  | .content _ => 2
  | .settings _ | .logging _ | .apiSpec _ | .output _ | .findings _ => 3

/-- **The words for a failure.** -/
def message : Failure → String
  | .settings error => "Cannot load configuration: " ++ error.report
  | .logging error => "Cannot initialize logging: " ++ error.report
  | .groups error => "Groups init error: " ++ error.report
  | .content error => "Error parsing the content: " ++ error.report
  | .apiSpec error => "Invalid API specification file: " ++ error.report
  | .address fault => "Invalid server address: " ++ fault.message
  | .listen fault => "Unable to start HTTP server: binding failed: " ++ fault.message
  | .output reason => "Cannot write output: " ++ reason
  | .findings count => toString count ++ " content errors found"

end Failure

end Rulebook.Command
