import Rulebook.Http.Message
import Rulebook.Settings.Basic

/-!
# Routes

The path of every route starts with the segments of the prefix. Six routes have a fixed last
segment, or none; every other single segment asks for a file. All of these are asked for with `get`.
When pages of other origins may use the service, one more route takes `options` for every path
below the prefix.
-/

namespace Rulebook.Service

open Rulebook.Http (Method)

/-- **What a request is about.** -/
inductive Route where
  /-- Whether the service is there. -/
  | main
  /-- The groups. -/
  | groups
  /-- The rules, all of them. -/
  | content
  /-- What became of the rules. -/
  | status
  /-- Facts about the program. -/
  | info
  /-- The counters. -/
  | metrics
  /-- A file. -/
  | file (name : String)
  /-- What another origin may do. -/
  | preflight
deriving DecidableEq, Repr

namespace Route

/-- Whether a route is for those only who say who they are. -/
def isProtected : Route → Bool
  | .file _ | .preflight => false
  | _ => true

/-- The route of `get` with the given segments behind the prefix. -/
def ofSegments? : List String → Option Route
  | [] => some .main
  | ["groups"] => some .groups
  | ["content"] => some .content
  | ["status"] => some .status
  | ["info"] => some .info
  | ["metrics"] => some .metrics
  | [name] => some (.file name)
  | _ => none

/-- What is left of segments behind others. -/
def dropStart? : List String → List String → Option (List String)
  | [], rest => some rest
  | _ :: _, [] => none
  | a :: start, b :: rest => if a = b then dropStart? start rest else none

/-- The segments that the path of every route starts with. -/
def baseSegments (server : Settings.Server) : List String := Path.components server.routePrefix

/-- **The route of a request.** A `head` is routed as a `get` is. -/
def find? (server : Settings.Server) (method : Method) (segments : List String) : Option Route :=
  match dropStart? (baseSegments server) segments with
  | none => none
  | some rest =>
    match method with
    | .get | .head => ofSegments? rest
    | .options => if server.enableCors then some .preflight else none
    | _ => none

/-- The segments of a route behind the base, with a word in angle brackets for what may vary. -/
def pattern : Route → List String
  | .main => []
  | .groups => ["groups"]
  | .content => ["content"]
  | .status => ["status"]
  | .info => ["info"]
  | .metrics => ["metrics"]
  | .file _ => ["<file>"]
  | .preflight => ["<_..>"]

/-- **The name of a route** in the counters: its path. -/
def label (server : Settings.Server) (route : Route) : String :=
  "/" ++ "/".intercalate (baseSegments server ++ route.pattern)

end Route

end Rulebook.Service
