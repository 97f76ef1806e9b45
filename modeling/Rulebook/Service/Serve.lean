import Rulebook.BuildInfo
import Rulebook.Group
import Rulebook.Http.Target
import Rulebook.Identity
import Rulebook.Service.Answer
import Rulebook.Service.Cell
import Rulebook.Service.Route
import Rulebook.Service.Tally
import Rulebook.Settings.Basic
import Rulebook.Snapshot
import Rulebook.StatusFilter

/-!
# Answering requests

A service answers from a snapshot: the groups, the rules and what became of them do not change
while it runs. What changes is its **state**, the counters and the cell that keeps the content.

A request is routed by its method and its path. If the route is a protected one and identities are
asked for, the request must carry one. Then the route answers. What no route is about does not
exist. Every answer is counted, and a `head` loses its body at the end; a request whose target
cannot be read is refused before any of this.
-/

namespace Rulebook

open Rulebook.Document
open Rulebook.Http (Request Response Target)

/-- **What a service answers from.** -/
structure Service where
  /-- The settings. -/
  settings : Settings
  /-- The groups. -/
  groups : GroupCatalog
  /-- The rules and what became of them. -/
  snapshot : Snapshot
  /-- Facts about the program. -/
  info : BuildInfo
  /-- The files, of which one may be asked for. -/
  world : Files.World

namespace Service

/-- **What changes while a service runs.** -/
structure State where
  /-- The counters. -/
  tally : Tally := {}
  /-- The content as bytes. -/
  cell : Cell := none
deriving Inhabited

/-- The header that carries an identity. -/
def identityHeader : String := "x-rh-identity"

/-- **The identity that a request carries**, when identities are asked for. -/
def identify (settings : Settings) (request : Request) :
    Except Identity.Refusal (Option Identity) :=
  if settings.server.auth then
    match request.header? identityHeader with
    | none => throw .missing
    | some value => some <$> Identity.ofHeader value
  else pure none

/-- The response to a request without an identity. -/
def refusalResponse (refusal : Identity.Refusal) : Response :=
  jsonResponse refusal.code (Answer.status refusal.message)

/-- The response to a request about nothing. -/
def notFoundResponse : Response := (Failure.notFound "Not found").response

/-- **The file that describes the routes**, under its own name only. -/
def fileResponse (service : Service) (name : String) : Response :=
  let server := service.settings.server
  if server.apiSpecName? != some name then notFoundResponse
  else
    let mediaType := (Path.extension? server.apiSpecFile).bind Http.typeOfExtension?
    match service.world.node server.apiSpecFile with
    | .error fault =>
      (Failure.internal ("Cannot read API specification: " ++ fault.message)).response
    | .ok (.file bytes) => { code := 200, mediaType, body := bytes }
    | .ok _ => { code := 200, mediaType, body := [] }

/-- The response with data under a name. -/
def dataResponse (name : String) (data : Data) : Response :=
  jsonResponse 200 (Answer.okWith name data)

/-- **What a route answers**, and the cell afterwards. -/
def routeResponse (service : Service) (state : State) (query : List (String × String)) :
    Route → Response × Cell
  | .main => (jsonResponse 200 Answer.ok, state.cell)
  | .groups =>
    (dataResponse "groups" (.list (service.groups.groups.map Group.toData)), state.cell)
  | .content =>
    let (cell, bytes) := Worker.finish service.snapshot.rules state.cell
    ({ code := 200, mediaType := some Http.binaryType, body := bytes }, cell)
  | .status =>
    let selected := (StatusFilter.ofParameters query).apply service.snapshot.status
    (dataResponse "rules" (.ofTable Status.toData selected), state.cell)
  | .info => (dataResponse "info" service.info.toData, state.cell)
  | .metrics =>
    ({ code := 200, mediaType := some Http.plainType,
       body := Text.encode (state.tally.text service.settings.metrics) }, state.cell)
  | .file name => (fileResponse service name, state.cell)
  | .preflight => ({ code := 204, mediaType := none, body := [] }, state.cell)

/-- The headers that let pages of other origins use the service. -/
def corsHeaders : List (String × String) :=
  [("access-control-allow-origin", "*"), ("access-control-allow-methods", "GET, OPTIONS"),
    ("access-control-allow-headers", "*")]

/-- What is done to every response: the headers for other origins, and no body for a `head`. -/
def finishResponse (server : Settings.Server) (method : Http.Method) (response : Response) :
    Response :=
  { response with
    headers := if server.enableCors then corsHeaders else []
    body := if method = .head then [] else response.body }

/-- **The answer to a request that has been routed**, and the cell afterwards. -/
def answer (service : Service) (state : State) (request : Request)
    (query : List (String × String)) : Option Route → Response × Cell
  | none => (notFoundResponse, state.cell)
  | some route =>
    match if route.isProtected then identify service.settings request else pure none with
    | .error refusal => (refusalResponse refusal, state.cell)
    | .ok _ => routeResponse service state query route

/-- **Answers a request**, and counts it. -/
def serve (service : Service) (state : State) (request : Request) : Response × State :=
  let server := service.settings.server
  match Target.ofText? request.target with
  | none => (jsonResponse 400 (Answer.status (Http.reason 400)), state)
  | some target =>
    let route := Route.find? server request.method target.segments
    let (response, cell) := answer service state request target.query route
    let endpoint := match route with
      | none => Tally.unmatched
      | some route => route.label server
    (finishResponse server request.method response,
      { tally := state.tally.record endpoint response.code, cell })

/-- **Answers requests one after the other.** -/
def serveAll (service : Service) : State → List Request → List Response × State
  | state, [] => ([], state)
  | state, request :: rest =>
    let (response, state) := serve service state request
    let (responses, state) := serveAll service state rest
    (response :: responses, state)

end Service

end Rulebook
