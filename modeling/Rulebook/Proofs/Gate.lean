import Rulebook.Files.Build
import Rulebook.Proofs.ContentBytes
import Rulebook.Proofs.TargetText
import Rulebook.Proofs.Tree
import Rulebook.Service.Serve

/-!
# Identities are a gate

When identities are asked for, a protected route is behind a **gate**. Whoever does not pass it is
told why, in an answer made from the request alone; what is answered beyond that comes from the
file that describes the routes, or from the settings of the server. So two services that differ in
their groups, their rules and all they have counted, and share only those settings and that file,
answer such a request alike (`serve_without_identity`), and the answer is one of few
(`Public`).

Whoever passes gets what a service without the gate answers (`serve_gated`). The counters are
the one thing that shows what has been asked before: the content is kept from one request to the
next, but however many there were, the cell holds nothing but the rules (`cell_holds_served`).
-/

namespace Rulebook

open Rulebook.Document
open Rulebook.Http (Request Response Target)

/-! ## Refusals -/

namespace Identity

/-- A header that is there is not refused as one that is missing. -/
theorem ofHeader_ne_missing (header : String) : ofHeader header ≠ .error .missing := by
  have hclaims (claims : Claims) : ofClaims claims ≠ .error .missing := by
    unfold ofClaims
    dsimp only
    split <;> split <;> rintro ⟨⟩
  unfold ofHeader
  split
  · rintro ⟨⟩
  · split
    · rintro ⟨⟩
    · exact hclaims _

/-- A header that is there is refused with one code. -/
theorem code_of_ofHeader {header : String} {refusal : Refusal}
    (h : ofHeader header = .error refusal) : refusal.code = 403 := by
  cases refusal with
  | missing => exact absurd h (ofHeader_ne_missing header)
  | malformed reason => rfl
  | empty => rfl

end Identity

namespace Service

open Http (Method)

section Refused

variable {settings : Settings} {request : Request}

/-- **A request passes without an identity** if none is asked for. -/
theorem identify_of_open (hauth : settings.server.auth = false) :
    identify settings request = .ok none := by
  rw [identify, if_neg (by simp [hauth])]
  rfl

/-- **A request without the header is refused.** -/
theorem identify_of_missing (hauth : settings.server.auth = true)
    (hmissing : request.header? identityHeader = none) :
    identify settings request = .error .missing := by
  rw [identify, if_pos hauth, hmissing]
  rfl

/-- A request with the header is judged by it. -/
theorem identify_of_header {value : String} (hauth : settings.server.auth = true)
    (hvalue : request.header? identityHeader = some value) :
    identify settings request = some <$> Identity.ofHeader value := by
  rw [identify, if_pos hauth, hvalue]

/-- **A request without a valid identity is refused.** -/
theorem identify_of_refused (hauth : settings.server.auth = true)
    (hrefused : ∀ value ∈ request.header? identityHeader,
      ∃ refusal, Identity.ofHeader value = .error refusal) :
    ∃ refusal, identify settings request = .error refusal := by
  cases hheader : request.header? identityHeader with
  | none => exact ⟨.missing, identify_of_missing hauth hheader⟩
  | some value =>
    obtain ⟨refusal, hrefusal⟩ := hrefused value hheader
    refine ⟨refusal, ?_⟩
    rw [identify_of_header hauth hheader, hrefusal]
    rfl

end Refused

/-! ## What is answered without an identity -/

/-- Only a request for what may be done is about what another origin may do. -/
theorem Route.options_of_find? {server : Settings.Server} {method : Method}
    {segments : List String} (h : find? server method segments = some .preflight) :
    method = .options ∧ server.enableCors = true := by
  have hget (rest : List String) : ofSegments? rest ≠ some .preflight := by
    unfold ofSegments?
    split <;> exact fun h => nomatch h
  unfold find? at h
  split at h
  · cases h
  · split at h
    · exact absurd h (hget _)
    · exact absurd h (hget _)
    · split at h
      · exact ⟨rfl, by assumption⟩
      · cases h
    · cases h

/-- **What anybody may be answered**: that a request is refused or about nothing, the file that
describes the routes or why it cannot be read, and what another origin may do. -/
inductive Public (service : Service) (request : Request) : Response → Prop where
  /-- The request is refused. -/
  | refused {refusal : Identity.Refusal} (h : identify service.settings request = .error refusal)
      (code : refusal.code = 401 ∨ refusal.code = 403) : Public service request
        (jsonResponse refusal.code (Answer.status refusal.message))
  /-- There is no such thing. -/
  | notFound : Public service request (jsonResponse 404 (Answer.status "Not found"))
  /-- The file is there. -/
  | document {bytes : List UInt8} {mediaType : Option String}
      (h : service.world.node service.settings.server.apiSpecFile = .ok (.file bytes)) :
      Public service request { code := 200, mediaType, body := bytes }
  /-- Something else is in its place. -/
  | noDocument {node : Files.Node} {mediaType : Option String}
      (h : service.world.node service.settings.server.apiSpecFile = .ok node)
      (hnode : ∀ bytes, node ≠ .file bytes) :
      Public service request { code := 200, mediaType, body := [] }
  /-- The file cannot be read. -/
  | unreadable {fault : IoFault}
      (h : service.world.node service.settings.server.apiSpecFile = .error fault) :
      Public service request
        (jsonResponse 500 (Answer.status ("Cannot read API specification: " ++ fault.message)))
  /-- Pages of other origins may use the service. -/
  | preflight (hmethod : request.method = .options)
      (hcors : service.settings.server.enableCors = true) :
      Public service request { code := 204, mediaType := none, body := [] }

/-- What is answered about the file is for anybody. -/
theorem public_fileResponse (service : Service) (request : Request) (name : String) :
    Public service request (fileResponse service name) := by
  unfold fileResponse
  dsimp only
  split
  · exact .notFound
  · split
    next fault hnode => exact .unreadable hnode
    next bytes hnode => exact .document hnode
    next node hfile hnode => exact .noDocument hnode hfile

/-- **What two services have in common** that differ in what they answer from: the settings of the
server, and what is found under the name of its file. -/
structure SameServer (service service' : Service) : Prop where
  /-- The settings of the server are the same. -/
  server : service'.settings.server = service.settings.server
  /-- The file is the same. -/
  file : service'.world.node service.settings.server.apiSpecFile
    = service.world.node service.settings.server.apiSpecFile

section Without

variable {service service' : Service} {state state' : State} {request : Request}
  {query : List (String × String)}

/-- What is answered about the file is the same in both. -/
theorem SameServer.fileResponse_eq (h : SameServer service service') (name : String) :
    fileResponse service' name = fileResponse service name := by
  unfold fileResponse
  dsimp only
  rw [h.server, h.file]

/-- Whether a request is refused is the same in both. -/
theorem SameServer.identify_eq (h : SameServer service service') :
    identify service'.settings request = identify service.settings request := by
  unfold identify
  rw [h.server]

/-- A request that is refused gets no further on a protected route. -/
theorem answer_of_refused {route : Route} {refusal : Identity.Refusal}
    (hroute : route.isProtected = true)
    (hrefusal : identify service.settings request = .error refusal) :
    answer service state request query (some route) = (refusalResponse refusal, state.cell) := by
  rw [answer, if_pos hroute, hrefusal]

/-- On a route that is not protected every request is answered. -/
theorem answer_of_unprotected {route : Route} (hroute : route.isProtected = false) :
    answer service state request query (some route) = routeResponse service state query route := by
  rw [answer, if_neg (by simp [hroute])]
  rfl

/-- A request that is not refused is answered by its route. -/
theorem answer_of_passed {route : Route} {who : Option Identity}
    (hwho : identify service.settings request = .ok who) :
    answer service state request query (some route) = routeResponse service state query route := by
  rw [answer, hwho]
  cases route.isProtected <;> rfl

/-- **A request that is refused is answered alike** by two services with one server. -/
theorem SameServer.answer_eq (h : SameServer service service') {refusal : Identity.Refusal}
    (hrefusal : identify service.settings request = .error refusal) (route? : Option Route) :
    (answer service' state' request query route?).1
      = (answer service state request query route?).1 := by
  cases route? with
  | none => rfl
  | some route =>
    -- A protected route is not reached, and the others look at nothing but the server and its file.
    cases hroute : route.isProtected with
    | true =>
      have hrefusal' : identify service'.settings request = .error refusal := by
        rw [h.identify_eq, hrefusal]
      rw [answer_of_refused hroute hrefusal, answer_of_refused hroute hrefusal']
    | false =>
      rw [answer_of_unprotected hroute, answer_of_unprotected hroute]
      cases route with
      | file name => exact h.fileResponse_eq name
      | preflight => rfl
      | _ => cases hroute

/-- **A request that is refused is answered what anybody may be answered.** -/
theorem public_answer {refusal : Identity.Refusal} {segments : List String}
    (hrefusal : identify service.settings request = .error refusal) :
    Public service request (answer service state request query
      (Route.find? service.settings.server request.method segments)).1 := by
  cases hfind : Route.find? service.settings.server request.method segments with
  | none => exact .notFound
  | some route =>
    cases hroute : route.isProtected with
    | true =>
      have hcode : refusal.code = 401 ∨ refusal.code = 403 := by
        cases refusal <;> simp [Identity.Refusal.code]
      rw [answer_of_refused hroute hrefusal]
      exact .refused hrefusal hcode
    | false =>
      rw [answer_of_unprotected hroute]
      cases route with
      | file name => exact public_fileResponse service request name
      | preflight =>
        obtain ⟨hmethod, hcors⟩ := Route.options_of_find? hfind
        exact .preflight hmethod hcors
      | _ => cases hroute

/-- A request whose target cannot be read is not answered. -/
theorem serve_of_unreadable (htarget : Target.ofText? request.target = none) :
    serve service state request = (jsonResponse 400 (Answer.status "Bad Request"), state) := by
  rw [serve, htarget]
  rfl

/-- **The response to a request** is what it is answered, finished. -/
theorem serve_of_target {target : Target} (htarget : Target.ofText? request.target = some target) :
    (serve service state request).1
      = finishResponse service.settings.server request.method
          (answer service state request target.query
            (Route.find? service.settings.server request.method target.segments)).1 := by
  rw [serve, htarget]

/-- The cell after a request is the one after its answer. -/
theorem cell_of_target {target : Target} (htarget : Target.ofText? request.target = some target) :
    (serve service state request).2.cell
      = (answer service state request target.query
          (Route.find? service.settings.server request.method target.segments)).2 := by
  rw [serve, htarget]

end Without

/-- **Without a valid identity nothing of the content shows.** Two services with one server answer a
request that carries no identity, or one that is refused, alike, whatever else they answer from and
whatever they were asked before; and the answer is one of those for anybody. -/
theorem serve_without_identity {service service' : Service} (state state' : State)
    (request : Request) (hsame : SameServer service service')
    (hauth : service.settings.server.auth = true)
    (hrefused : ∀ value ∈ request.header? identityHeader,
      ∃ refusal, Identity.ofHeader value = .error refusal) :
    (serve service' state' request).1 = (serve service state request).1
      ∧ (Target.ofText? request.target = none →
          (serve service state request).1 = jsonResponse 400 (Answer.status "Bad Request"))
      ∧ ∀ target, Target.ofText? request.target = some target →
          ∃ response, Public service request response ∧ (serve service state request).1
            = finishResponse service.settings.server request.method response := by
  obtain ⟨refusal, hrefusal⟩ := identify_of_refused hauth hrefused
  cases htarget : Target.ofText? request.target with
  | none =>
    rw [serve_of_unreadable htarget, serve_of_unreadable htarget]
    exact ⟨rfl, fun _ => rfl, fun _ h => nomatch h⟩
  | some target =>
    rw [serve_of_target htarget, serve_of_target htarget, hsame.server, hsame.answer_eq hrefusal]
    exact ⟨rfl, nofun, fun _ _ => ⟨_, public_answer hrefusal, rfl⟩⟩

/-- A service with nothing to answer from that asks for identities. -/
def emptyService : Service where
  settings := { server := { auth := true } }
  groups := ∅
  snapshot := {}
  info := BuildInfo.current
  world := { root := .directory [], start := [], distinct := .directory [] List.nodup_nil nofun }

/-- A request for the rules with an identity that is none, answered alike by two services of which
one has rules. -/
theorem serve_without_identity_storageRules :
    let request : Request := { target := "/api/v1/content", headers := [("X-RH-Identity", "!")] }
    let service' : Service := { emptyService with snapshot := { rules := storageRules } }
    SameServer emptyService service' ∧ emptyService.settings.server.auth = true
      ∧ (∀ value ∈ request.header? identityHeader,
        ∃ refusal, Identity.ofHeader value = .error refusal)
      ∧ (serve service' {} request).1 = (serve emptyService {} request).1 := by
  intro request service'
  have hsame : SameServer emptyService service' := ⟨rfl, rfl⟩
  have hrefused : ∀ value ∈ request.header? identityHeader,
      ∃ refusal, Identity.ofHeader value = .error refusal := by
    have hheader : request.header? identityHeader = some "!" := by decide
    rw [hheader]
    rintro value ⟨⟩
    exact ⟨.malformed "Invalid symbol 33, offset 0.", by decide⟩
  exact ⟨hsame, rfl, hrefused, (serve_without_identity {} {} request hsame rfl hrefused).1⟩

/-- A service that asks for identities, with a directory in place of the file. -/
def spoiltService : Service :=
  { emptyService with world := .ofPlaces [] [(["openapi.json"], .directory [])] }

theorem node_spoiltService :
    spoiltService.world.node spoiltService.settings.server.apiSpecFile = .ok (.directory []) := by
  have hroot : spoiltService.world.root = .directory [("openapi.json", .directory [])] := rfl
  have hname : "openapi.json" ≠ "." ∧ "openapi.json" ≠ ".."
      ∧ "openapi.json".utf8ByteSize ≤ Files.World.maxName := by
    decide
  exact Files.World.node_in_root hroot rfl (by decide +kernel) hname rfl nofun

/-- **Two answers without an identity that are neither a refusal nor the file**, nor about what does
not exist or another origin: to a path with a blank in it, and about the directory. -/
theorem serve_without_identity_unlisted :
    let blank : Request := { target := "/api/v1/a b" }
    let spoilt : Request := { target := "/api/v1/openapi.json" }
    (emptyService.settings.server.auth = true ∧ blank.header? identityHeader = none
        ∧ (serve emptyService {} blank).1 = jsonResponse 400 (Answer.status "Bad Request"))
      ∧ spoiltService.settings.server.auth = true ∧ spoilt.header? identityHeader = none
        ∧ (∀ bytes, spoiltService.world.node spoiltService.settings.server.apiSpecFile
          ≠ .ok (.file bytes))
        ∧ (serve spoiltService {} spoilt).1
          = { code := 200, mediaType := some Http.jsonType, body := [] } := by
  intro blank spoilt
  have hblank : Target.ofText? blank.target = none := by decide
  have hspoilt : Target.Leads "/api/v1/openapi.json" ["api", "v1", "openapi.json"] :=
    Target.leads_plain (by decide) (List.forall_iff_forall_mem.1 (by decide))
  have hroute : Route.find? spoiltService.settings.server .get ["api", "v1", "openapi.json"]
      = some (.file "openapi.json") := by decide
  refine ⟨⟨rfl, rfl, by rw [serve_of_unreadable hblank]⟩, rfl, rfl, fun bytes => ?_, ?_⟩
  · rw [node_spoiltService]
    simp
  · rw [serve_of_target hspoilt.ofText?, hroute, answer_of_unprotected rfl, routeResponse,
      fileResponse]
    dsimp only
    rw [if_neg (by decide), node_spoiltService]
    rfl

/-! ## What a service keeps -/

section Kept

variable {service : Service} {state : State} {request : Request}

/-- **Answering keeps the cell**: it holds nothing but the rules afterwards if it did before. -/
theorem cell_holds_answer (h : state.cell.Holds service.snapshot.rules)
    (query : List (String × String)) (route? : Option Route) :
    (answer service state request query route?).2.Holds service.snapshot.rules := by
  unfold answer
  split
  · exact h
  next route =>
    split
    · exact h
    · -- Only the route of the content writes to the cell, and what it writes is what it answers.
      cases route with
      | content =>
        rw [routeResponse, Worker.finish_eq h]
        exact fun _ hbytes => (Option.some.inj hbytes).symm
      | _ => exact h

/-- A request keeps the cell. -/
theorem cell_holds_serve (h : state.cell.Holds service.snapshot.rules) :
    (serve service state request).2.cell.Holds service.snapshot.rules := by
  cases htarget : Target.ofText? request.target with
  | none =>
    rw [serve_of_unreadable htarget]
    exact h
  | some target =>
    rw [cell_of_target htarget]
    exact cell_holds_answer h target.query _

/-- So do any number of requests. -/
theorem cell_holds_serveAll (h : state.cell.Holds service.snapshot.rules)
    (requests : List Request) :
    (serveAll service state requests).2.cell.Holds service.snapshot.rules := by
  induction requests generalizing state with
  | nil => exact h
  | cons request rest ih =>
    rw [serveAll]
    exact ih (cell_holds_serve h)

end Kept

/-- The state of a service that has answered some requests. -/
def served (service : Service) (requests : List Request) : State :=
  (serveAll service {} requests).2

/-- **Whatever a service has been asked, its cell holds nothing but the rules.** -/
theorem cell_holds_served (service : Service) (requests : List Request) :
    (service.served requests).cell.Holds service.snapshot.rules :=
  cell_holds_serveAll (fun _ h => by cases h) requests

/-! ## The gate -/

/-- The service with or without the gate. -/
def withAuth (service : Service) (auth : Bool) : Service :=
  { service with settings.server.auth := auth }

/-- **Two responses are alike** if they differ in nothing but what the counters show. -/
structure Alike (route : Route) (response other : Response) : Prop where
  /-- The status codes are the same. -/
  code : response.code = other.code
  /-- The kinds of content are the same. -/
  mediaType : response.mediaType = other.mediaType
  /-- The headers are the same. -/
  headers : response.headers = other.headers
  /-- The bodies are the same, but for the counters. -/
  body : route ≠ .metrics → response.body = other.body

/-- **What a gate makes of a response** to a request on a protected route. -/
structure Gated (request : Request) (route : Route) (plain response : Response) : Prop where
  /-- One code says that the header is missing. -/
  missing : response.code = 401 ↔ request.header? identityHeader = none
  /-- The body then says so. -/
  missing_body : response.code = 401 →
    response.body = Text.encode "\x7b\"status\":\"Missing auth token\"\x7d"
  /-- Another code says that the header is refused. -/
  refused : response.code = 403
    ↔ ∃ value ∈ request.header? identityHeader, ∃ refusal, Identity.ofHeader value = .error refusal
  /-- The body then says why. -/
  refused_body : ∀ value ∈ request.header? identityHeader, ∀ refusal,
    Identity.ofHeader value = .error refusal →
      response.body = Text.encode (Json.compact (Answer.status refusal.message))
  /-- With an identity the response is the one without the gate. -/
  passed : ∀ value ∈ request.header? identityHeader, ∀ who,
    Identity.ofHeader value = .ok who → Alike route response plain

namespace Route

/-- A path that goes on behind a start is left with what goes on. -/
theorem dropStart?_append (start rest : List String) :
    dropStart? start (start ++ rest) = some rest := by
  induction start with
  | nil => cases rest <;> rfl
  | cons a start ih => rw [List.cons_append, dropStart?, if_pos rfl, ih]

/-- **A protected route is found** under its own path. -/
theorem find?_pattern {server : Settings.Server} {route : Route}
    (hroute : route.isProtected = true) :
    find? server .get (baseSegments server ++ route.pattern) = some route := by
  rw [find?, dropStart?_append]
  cases route with
  | file name => cases hroute
  | preflight => cases hroute
  | _ => rfl

end Route

/-- A protected route does not see whether there is a gate. -/
theorem routeResponse_withAuth {service : Service} {state : State}
    {query : List (String × String)} {route : Route} (auth : Bool) :
    routeResponse (service.withAuth auth) state query route
      = routeResponse service state query route := by
  cases route <;> rfl

/-- A protected route always has an answer. -/
theorem code_of_isProtected {service : Service} {state : State} {query : List (String × String)}
    {route : Route} (hroute : route.isProtected = true) :
    (routeResponse service state query route).1.code = 200 := by
  cases route with
  | file name => cases hroute
  | preflight => cases hroute
  | _ => rfl

/-- **What a protected route answers does not depend on the state**, but for the counters. -/
theorem routeResponse_alike {service : Service} {state state' : State}
    {query : List (String × String)} {route : Route} (hroute : route.isProtected = true)
    (hstate : state.cell.Holds service.snapshot.rules)
    (hstate' : state'.cell.Holds service.snapshot.rules) :
    Alike route (routeResponse service state query route).1
      (routeResponse service state' query route).1 := by
  cases route with
  | file name => cases hroute
  | preflight => cases hroute
  | content =>
    simp only [routeResponse, Worker.finish_eq hstate, Worker.finish_eq hstate']
    exact ⟨rfl, rfl, rfl, fun _ => rfl⟩
  | metrics => exact ⟨rfl, rfl, rfl, fun h => absurd rfl h⟩
  | _ => exact ⟨rfl, rfl, rfl, fun _ => rfl⟩

/-- A request for a representation gets its body. -/
theorem body_finishResponse (server : Settings.Server) (response : Response) :
    (finishResponse server .get response).body = response.body :=
  rfl

/-- What is done to every response keeps them alike. -/
theorem Alike.finish {route : Route} {response other : Response} (h : Alike route response other)
    (server : Settings.Server) (method : Method) :
    Alike route (finishResponse server method response) (finishResponse server method other) where
  code := h.code
  mediaType := h.mediaType
  headers := rfl
  body hroute := by
    unfold finishResponse
    dsimp only
    rw [h.body hroute]

/-- **The prefix as it is written leads to its segments**, when nothing in it needs a code. -/
theorem leads_base {server : Settings.Server}
    (h : ∀ c ∈ server.routePrefix.toList, Http.isPathChar c = true ∧ c ≠ '%') :
    Target.Leads server.routePrefix (Route.baseSegments server) := by
  refine Target.leads_plain ?_ h
  rw [Settings.Server.routePrefix, Settings.normalPrefix, String.toList_append]
  rfl

/-- **A request that asks for a protected route**, by its path. -/
structure AsksFor (service : Service) (request : Request) (route : Route) (target : Target) :
    Prop where
  /-- The route is protected. -/
  isProtected : route.isProtected = true
  /-- The request asks for a representation. -/
  isGet : request.method = .get
  /-- Its target can be read. -/
  reads : Target.ofText? request.target = some target
  /-- Its path is that of the route. -/
  path : target.segments = Route.baseSegments service.settings.server ++ route.pattern

namespace AsksFor

variable {service : Service} {state : State} {request : Request} {route : Route} {target : Target}

/-- Whether there is a gate has no part in where a request goes. -/
theorem withAuth (h : AsksFor service request route target) (auth : Bool) :
    AsksFor (service.withAuth auth) request route target :=
  ⟨h.isProtected, h.isGet, h.reads, h.path⟩

/-- The headers of a request have no part in it either. -/
theorem withHeaders (h : AsksFor service request route target) (headers : List (String × String)) :
    AsksFor service { request with headers } route target :=
  ⟨h.isProtected, h.isGet, h.reads, h.path⟩

/-- The response is what the route is answered, finished. -/
theorem serve_eq (h : AsksFor service request route target) :
    (serve service state request).1 = finishResponse service.settings.server .get
      (answer service state request target.query (some route)).1 := by
  rw [serve_of_target h.reads, h.isGet, h.path, Route.find?_pattern h.isProtected]

/-- **Who does not pass is told why.** -/
theorem serve_of_refused (h : AsksFor service request route target)
    {refusal : Identity.Refusal} (hrefusal : identify service.settings request = .error refusal) :
    (serve service state request).1
      = finishResponse service.settings.server .get (refusalResponse refusal) := by
  rw [h.serve_eq, answer_of_refused h.isProtected hrefusal]

/-- **Who passes gets what the route answers.** -/
theorem serve_of_passed (h : AsksFor service request route target)
    {who : Option Identity} (hwho : identify service.settings request = .ok who) :
    (serve service state request).1 = finishResponse service.settings.server .get
      (routeResponse service state target.query route).1 := by
  rw [h.serve_eq, answer_of_passed hwho]

/-- With or without the gate this is the same. -/
theorem serve_withAuth_of_passed (h : AsksFor service request route target) {auth : Bool}
    {who : Option Identity} (hwho : identify (service.withAuth auth).settings request = .ok who) :
    (serve (service.withAuth auth) state request).1
      = finishResponse service.settings.server .get
          (routeResponse service state target.query route).1 := by
  rw [(h.withAuth auth).serve_of_passed hwho, routeResponse_withAuth]
  rfl

/-- Without the gate everyone passes. -/
theorem serve_open (h : AsksFor service request route target) :
    (serve (service.withAuth false) state request).1
      = finishResponse service.settings.server .get
          (routeResponse service state target.query route).1 :=
  h.serve_withAuth_of_passed (identify_of_open rfl)

end AsksFor

section Outcomes

variable {request : Request} {route : Route} {plain response : Response}

/-- A request without the header is answered as such. -/
theorem gated_of_missing (server : Settings.Server)
    (hheader : request.header? identityHeader = none) :
    Gated request route plain (finishResponse server .get (refusalResponse .missing)) where
  missing := iff_of_true rfl hheader
  missing_body _ := by
    rw [body_finishResponse]
    decide
  refused := by
    refine iff_of_false (show ¬ 401 = 403 by decide) ?_
    rw [hheader]
    rintro ⟨value, ⟨⟩, -⟩
  refused_body := by rw [hheader]; rintro value ⟨⟩
  passed := by rw [hheader]; rintro value ⟨⟩

/-- A request whose header is refused is answered as such. -/
theorem gated_of_refused (server : Settings.Server) {value : String} {refusal : Identity.Refusal}
    (hheader : request.header? identityHeader = some value)
    (hrefusal : Identity.ofHeader value = .error refusal) :
    Gated request route plain (finishResponse server .get (refusalResponse refusal)) := by
  have hcode : (finishResponse server .get (refusalResponse refusal)).code = 403 :=
    Identity.code_of_ofHeader hrefusal
  refine ⟨?_, ?_, iff_of_true hcode ⟨value, hheader, refusal, hrefusal⟩, ?_, ?_⟩
  · refine iff_of_false (by rw [hcode]; decide) ?_
    rw [hheader]
    rintro ⟨⟩
  · rw [hcode]
    rintro ⟨⟩
  · rw [hheader]
    rintro value' ⟨⟩ refusal' hrefusal'
    rw [hrefusal] at hrefusal'
    obtain rfl := Except.error.inj hrefusal'
    rw [body_finishResponse, refusalResponse, jsonResponse]
  · rw [hheader]
    rintro value' ⟨⟩ who hwho
    rw [hrefusal] at hwho
    cases hwho

/-- A request with an identity is answered. -/
theorem gated_of_passed {value : String} {who : Identity}
    (hheader : request.header? identityHeader = some value)
    (hwho : Identity.ofHeader value = .ok who) (hcode : response.code = 200)
    (halike : Alike route response plain) : Gated request route plain response := by
  have hnot {refusal : Identity.Refusal} : Identity.ofHeader value ≠ .error refusal := by
    rw [hwho]
    rintro ⟨⟩
  refine ⟨?_, ?_, ?_, ?_, fun _ _ _ _ => halike⟩
  · refine iff_of_false (by rw [hcode]; decide) ?_
    rw [hheader]
    rintro ⟨⟩
  · rw [hcode]
    rintro ⟨⟩
  · refine iff_of_false (by rw [hcode]; decide) ?_
    rw [hheader]
    rintro ⟨value', ⟨⟩, refusal, hrefusal⟩
    exact hnot hrefusal
  · rw [hheader]
    rintro value' ⟨⟩ refusal hrefusal
    exact absurd hrefusal hnot

end Outcomes

/-- **Identities are a pure gate.** Without the gate a protected route does not see the headers.
With it, a request without the header and one whose header is refused are answered as such, each by
a code of its own; and any other request is answered as it is without the gate. Both services may
have answered different requests before. -/
theorem serve_gated {service : Service} {request : Request} {route : Route} {target : Target}
    (h : AsksFor service request route target) (earlier earlier' : List Request) :
    let plain := (serve (service.withAuth false) ((service.withAuth false).served earlier)
      request).1
    (∀ headers, (serve (service.withAuth false) ((service.withAuth false).served earlier)
        { request with headers }).1 = plain)
      ∧ Gated request route plain
        (serve (service.withAuth true) ((service.withAuth true).served earlier') request).1 := by
  intro plain
  have hplain : plain = _ := h.serve_open
  refine ⟨fun headers => (h.withHeaders headers).serve_open.trans hplain.symm, ?_⟩
  -- With the gate there are three kinds of requests: without the header, refused, and let through.
  have hgated := h.withAuth true
  have hauth : (service.withAuth true).settings.server.auth = true := rfl
  cases hheader : request.header? identityHeader with
  | none =>
    rw [hgated.serve_of_refused (identify_of_missing hauth hheader)]
    exact gated_of_missing _ hheader
  | some value =>
    have hidentify := identify_of_header hauth hheader
    cases hvalue : Identity.ofHeader value with
    | error refusal =>
      rw [hvalue] at hidentify
      rw [hgated.serve_of_refused hidentify]
      exact gated_of_refused _ hheader hvalue
    | ok who =>
      rw [hvalue] at hidentify
      rw [h.serve_withAuth_of_passed hidentify, hplain]
      refine gated_of_passed hheader hvalue (code_of_isProtected h.isProtected) ?_
      exact (routeResponse_alike h.isProtected (cell_holds_served (service.withAuth true) earlier')
        (cell_holds_served (service.withAuth false) earlier)).finish _ _

/-- A request for the content with a header that names an account, at a service that has been asked
for it before with the gate and has not without. -/
theorem serve_gated_content :
    let request : Request :=
      { target := "/api/v1/content"
        headers := [("x-rh-identity", "eyJpZGVudGl0eSI6eyJhY2NvdW50X251bWJlciI6IjEifX0=")] }
    let gated := emptyService.withAuth true
    let unguarded := emptyService.withAuth false
    AsksFor emptyService request .content ⟨["api", "v1", "content"], []⟩
      ∧ Gated request .content (serve unguarded (unguarded.served []) request).1
        (serve gated (gated.served [request]) request).1 := by
  intro request gated unguarded
  have hpath : Target.Leads "/api/v1/content" ["api", "v1", "content"] :=
    Target.leads_plain (by decide) (List.forall_iff_forall_mem.1 (by decide))
  have h : AsksFor emptyService request .content ⟨["api", "v1", "content"], []⟩ :=
    ⟨rfl, rfl, hpath.ofText?, by decide⟩
  exact ⟨h, (serve_gated h [] [request]).2⟩

end Service

end Rulebook
