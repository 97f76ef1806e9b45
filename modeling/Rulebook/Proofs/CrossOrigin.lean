import Rulebook.Proofs.Gate

/-!
# Pages of other origins

When pages of other origins may use the service, every response says so in its headers, and a
request that asks what may be done is answered for every path below the prefix. That is all the
setting does: which route a request of another method is about, whether it is refused and what it
is answered do not depend on it (`answer_withCors`), whatever either service has been asked before
(`answer_alike`).

The exception is a request whose target cannot be read. It is refused before anything is known about
it, and gets no headers.
-/

namespace Rulebook.Service

open Rulebook.Http (Method Request Response Target)

/-! ## Paths below the prefix -/

namespace Route

/-- **Nothing is left of a path** that does not start with the segments. -/
theorem dropStart?_eq_none_iff {start segments : List String} :
    dropStart? start segments = none ↔ ¬ start <+: segments := by
  induction start generalizing segments with
  | nil => exact iff_of_false nofun (not_not_intro List.nil_prefix)
  | cons a start ih =>
    cases segments with
    | nil => exact iff_of_true rfl (by simp)
    | cons b segments =>
      rw [dropStart?, List.cons_prefix_cons]
      split
      next heq => rw [ih, and_iff_right heq]
      next hne => exact iff_of_true rfl fun h => hne h.1

variable {server : Settings.Server} {segments : List String}

/-- Outside the prefix there is no route. -/
theorem find?_outside (h : ¬ baseSegments server <+: segments) (method : Method) :
    find? server method segments = none := by
  rw [find?, dropStart?_eq_none_iff.2 h]

/-- Below the prefix there is one route for what may be done, if there is. -/
theorem find?_options (h : baseSegments server <+: segments) :
    find? server .options segments = if server.enableCors then some .preflight else none := by
  obtain ⟨rest, rfl⟩ := h
  rw [find?, dropStart?_append]

/-- The other routes do not depend on the setting. -/
theorem find?_of_ne_options {method : Method} (hmethod : method ≠ .options) (enabled : Bool) :
    find? { server with enableCors := enabled } method segments
      = find? server method segments := by
  have hbase : baseSegments { server with enableCors := enabled } = baseSegments server := rfl
  rw [find?, find?, hbase]
  cases dropStart? (baseSegments server) segments with
  | none => rfl
  | some rest =>
    cases method with
    | options => exact absurd rfl hmethod
    | _ => rfl

end Route

/-! ## What the setting does not change -/

/-- The service for pages of other origins, or without. -/
def withCors (service : Service) (enabled : Bool) : Service :=
  { service with settings.server.enableCors := enabled }

section Answers

variable {service : Service} {state state' : State} {request : Request}
  {query : List (String × String)} {route? : Option Route}

/-- No route sees the setting. -/
theorem routeResponse_withCors (enabled : Bool) (route : Route) :
    routeResponse (service.withCors enabled) state query route
      = routeResponse service state query route := by
  cases route <;> rfl

/-- **What a request is answered does not depend on the setting.** -/
theorem answer_withCors (enabled : Bool) :
    answer (service.withCors enabled) state request query route?
      = answer service state request query route? := by
  cases route? with
  | none => rfl
  | some route =>
    have hidentify : identify (service.withCors enabled).settings request
        = identify service.settings request := rfl
    rw [answer, answer, hidentify]
    simp only [routeResponse_withCors]

/-- **What a request is answered does not depend on the state**, but for the counters. -/
theorem answer_alike (hstate : state.cell.Holds service.snapshot.rules)
    (hstate' : state'.cell.Holds service.snapshot.rules) (route : Route) :
    Alike route (answer service state request query (some route)).1
      (answer service state' request query (some route)).1 := by
  have hsame (response : Response) : Alike route response response := ⟨rfl, rfl, rfl, fun _ => rfl⟩
  cases hroute : route.isProtected with
  | false =>
    rw [answer_of_unprotected hroute, answer_of_unprotected hroute]
    -- The state is for the protected routes.
    cases route with
    | file name => exact hsame _
    | preflight => exact hsame _
    | _ => cases hroute
  | true =>
    cases hidentify : identify service.settings request with
    | error refusal =>
      rw [answer_of_refused hroute hidentify, answer_of_refused hroute hidentify]
      exact hsame _
    | ok who =>
      rw [answer_of_passed hidentify, answer_of_passed hidentify]
      exact routeResponse_alike hroute hstate hstate'

end Answers

/-! ## What it changes -/

/-- **What the setting changes of a response**: the headers, and what is answered to the question
what may be done. -/
structure CrossOrigin (server : Settings.Server) (request : Request) (target : Target)
    (shared own : Response) : Prop where
  /-- With it the headers are there. -/
  sharedHeaders : shared.headers = corsHeaders
  /-- Without it there are none. -/
  ownHeaders : own.headers = []
  /-- The status codes are the same. -/
  code : request.method ≠ .options → shared.code = own.code
  /-- The kinds of content are the same. -/
  mediaType : request.method ≠ .options → shared.mediaType = own.mediaType
  /-- The bodies are the same, but for the counters. -/
  body : request.method ≠ .options →
    Route.find? server request.method target.segments ≠ some .metrics → shared.body = own.body
  /-- Below the prefix the question is answered with the headers alone. -/
  below : request.method = .options → Route.baseSegments server <+: target.segments →
    shared = { code := 204, mediaType := none, headers := corsHeaders, body := [] }
      ∧ own = jsonResponse 404 (Answer.status "Not found")
  /-- Elsewhere there is nothing to ask. -/
  elsewhere : request.method = .options → ¬ Route.baseSegments server <+: target.segments →
    shared = { jsonResponse 404 (Answer.status "Not found") with headers := corsHeaders }
      ∧ own = jsonResponse 404 (Answer.status "Not found")

section Cases

variable (service : Service) {state state' : State} {request : Request} {target : Target}

/-- The prefix does not depend on the setting. -/
theorem baseSegments_withCors (enabled : Bool) :
    Route.baseSegments (service.withCors enabled).settings.server
      = Route.baseSegments service.settings.server :=
  rfl

/-- The response with or without the setting. -/
theorem serve_withCors_of_target (htarget : Target.ofText? request.target = some target)
    (enabled : Bool) : (serve (service.withCors enabled) state request).1
      = finishResponse (service.withCors enabled).settings.server request.method
          (answer service state request target.query
            (Route.find? (service.withCors enabled).settings.server request.method
              target.segments)).1 := by
  rw [serve_of_target htarget, answer_withCors]

/-- To the question what may be done there is no more to do than to put the headers. -/
theorem finishResponse_options (server : Settings.Server) (response : Response) :
    finishResponse server .options response
      = { response with headers := if server.enableCors then corsHeaders else [] } :=
  rfl

/-- **A request of another method** is answered alike. -/
theorem serve_alike_of_ne_options (htarget : Target.ofText? request.target = some target)
    (hmethod : request.method ≠ .options) (hstate : state.cell.Holds service.snapshot.rules)
    (hstate' : state'.cell.Holds service.snapshot.rules) :
    let shared := (serve (service.withCors true) state request).1
    let own := (serve (service.withCors false) state' request).1
    shared.code = own.code ∧ shared.mediaType = own.mediaType
      ∧ (Route.find? service.settings.server request.method target.segments ≠ some .metrics →
        shared.body = own.body) := by
  intro shared own
  have hshared : shared = _ := serve_withCors_of_target service htarget true
  have hown : own = _ := serve_withCors_of_target service htarget false
  have hfind (enabled : Bool) :
      Route.find? (service.withCors enabled).settings.server request.method target.segments
        = Route.find? service.settings.server request.method target.segments :=
    Route.find?_of_ne_options hmethod enabled
  rw [hfind] at hshared hown
  rw [hshared, hown]
  cases Route.find? service.settings.server request.method target.segments with
  | none => exact ⟨rfl, rfl, fun _ => rfl⟩
  | some route =>
    have halike : Alike route (answer service state request target.query (some route)).1
        (answer service state' request target.query (some route)).1 :=
      answer_alike hstate hstate' route
    refine ⟨halike.code, halike.mediaType, fun hroute => ?_⟩
    unfold finishResponse
    dsimp only
    rw [halike.body fun heq => hroute (congrArg some heq)]

/-- A request about nothing that asks what may be done is answered as such. -/
theorem serve_options_unmatched (htarget : Target.ofText? request.target = some target)
    (hmethod : request.method = .options) (enabled : Bool)
    (hfind : Route.find? (service.withCors enabled).settings.server .options target.segments
      = none) :
    (serve (service.withCors enabled) state request).1
      = { jsonResponse 404 (Answer.status "Not found") with
          headers := if enabled then corsHeaders else [] } := by
  have hnothing : answer service state request target.query none
      = (jsonResponse 404 (Answer.status "Not found"), state.cell) := rfl
  rw [serve_withCors_of_target service htarget, hmethod, hfind, hnothing, finishResponse_options]
  rfl

/-- **A request that asks what may be done** below the prefix is answered, or there is no route. -/
theorem serve_options_below (htarget : Target.ofText? request.target = some target)
    (hmethod : request.method = .options)
    (hbelow : Route.baseSegments service.settings.server <+: target.segments) :
    (serve (service.withCors true) state request).1
        = { code := 204, mediaType := none, headers := corsHeaders, body := [] }
      ∧ (serve (service.withCors false) state' request).1
        = jsonResponse 404 (Answer.status "Not found") := by
  have hfind (enabled : Bool) : Route.find? (service.withCors enabled).settings.server
      .options target.segments = if enabled then some .preflight else none :=
    Route.find?_options hbelow
  have hpreflight : answer service state request target.query (some .preflight)
      = ({ code := 204, mediaType := none, body := [] }, state.cell) :=
    answer_of_unprotected rfl
  refine ⟨?_, serve_options_unmatched service htarget hmethod false (hfind false)⟩
  rw [serve_withCors_of_target service htarget, hmethod, hfind, if_pos rfl, hpreflight,
    finishResponse_options]
  rfl

/-- Elsewhere there is none. -/
theorem serve_options_elsewhere (htarget : Target.ofText? request.target = some target)
    (hmethod : request.method = .options)
    (helsewhere : ¬ Route.baseSegments service.settings.server <+: target.segments) :
    (serve (service.withCors true) state request).1
        = { jsonResponse 404 (Answer.status "Not found") with headers := corsHeaders }
      ∧ (serve (service.withCors false) state' request).1
        = jsonResponse 404 (Answer.status "Not found") := by
  have hfind (enabled : Bool) :
      Route.find? (service.withCors enabled).settings.server .options target.segments = none :=
    Route.find?_outside (by rwa [baseSegments_withCors]) .options
  exact ⟨serve_options_unmatched service htarget hmethod true (hfind true),
    serve_options_unmatched service htarget hmethod false (hfind false)⟩

end Cases

/-- **A service for pages of other origins differs from one that is not in nothing else.** Both may
have been asked different things before, and a request whose target cannot be read is refused by
both alike. -/
theorem serve_withCors (service : Service) (request : Request) (earlier earlier' : List Request) :
    let shared := (serve (service.withCors true) ((service.withCors true).served earlier)
      request).1
    let own := (serve (service.withCors false) ((service.withCors false).served earlier')
      request).1
    (∀ target, Target.ofText? request.target = some target →
        CrossOrigin service.settings.server request target shared own)
      ∧ (Target.ofText? request.target = none →
        shared = jsonResponse 400 (Answer.status "Bad Request") ∧ own = shared) := by
  intro shared own
  refine ⟨fun target htarget => ?_, fun htarget => ?_⟩
  · have hshared : shared = _ := serve_withCors_of_target service htarget true
    have hown : own = _ := serve_withCors_of_target service htarget false
    have halike (hmethod : request.method ≠ .options) :=
      serve_alike_of_ne_options service htarget hmethod
        (cell_holds_served (service.withCors true) earlier)
        (cell_holds_served (service.withCors false) earlier')
    exact {
      sharedHeaders := by rw [hshared]; rfl
      ownHeaders := by rw [hown]; rfl
      code := fun hmethod => (halike hmethod).1
      mediaType := fun hmethod => (halike hmethod).2.1
      body := fun hmethod => (halike hmethod).2.2
      below := serve_options_below service htarget
      elsewhere := serve_options_elsewhere service htarget }
  · have hshared : shared = _ := congrArg Prod.fst (serve_of_unreadable htarget)
    have hown : own = _ := congrArg Prod.fst (serve_of_unreadable htarget)
    exact ⟨hshared, hown.trans hshared.symm⟩

/-- A request without an identity that asks what may be done with the path of all routes, at a
service that asks for identities. -/
theorem serve_withCors_options :
    let request : Request := { method := .options, target := "/api/v1" }
    Target.ofText? request.target = some ⟨["api", "v1"], []⟩
      ∧ (serve (emptyService.withCors true) {} request).1
        = { code := 204, mediaType := none, headers := corsHeaders, body := [] }
      ∧ (serve (emptyService.withCors false) {} request).1.code = 404 := by
  intro request
  have hpath : Target.Leads "/api/v1" ["api", "v1"] :=
    Target.leads_plain (by decide) (List.forall_iff_forall_mem.1 (by decide))
  have hcross := (serve_withCors emptyService request [] []).1 _ hpath.ofText?
  obtain ⟨hshared, hown⟩ := hcross.below rfl (by decide)
  exact ⟨hpath.ofText?, hshared, congrArg Response.code hown⟩

/-- **A request for a path with a blank in it is refused without the headers.** -/
theorem serve_blank_without_headers :
    let request : Request := { target := "/api/v1/a b" }
    (serve (emptyService.withCors true) {} request).1.headers ≠ corsHeaders := by
  intro request
  have htarget : Target.ofText? request.target = none := by decide
  rw [serve_of_unreadable htarget]
  decide

end Rulebook.Service
