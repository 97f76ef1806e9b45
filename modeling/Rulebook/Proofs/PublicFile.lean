import Rulebook.Files.Build
import Rulebook.Proofs.Gate
import Rulebook.Proofs.Tree

/-!
# The one public file

Of all files only the one that describes the routes is served, and it is served to anybody: the
route of a file is not behind the gate (`serve_segment`), and it compares the segment that is asked
for with the name of that file before it looks at any file.

The five segments that the other routes have stand before it. A file that has the name of one of
them is out of reach: the route of that name answers (`groups_file_out_of_reach`).
-/

namespace Rulebook.Service

open Rulebook.Http (Request Response Target)

/-- The segments of the routes that come before the route of a file. -/
def fixedSegments : List String := ["groups", "content", "status", "info", "metrics"]

/-- **A request for one segment below the prefix.** -/
structure AsksForSegment (service : Service) (request : Request) (segment : String) : Prop where
  /-- It asks for a representation. -/
  isGet : request.method = .get
  /-- Its path is the prefix and the segment. -/
  reads : ∃ query, Target.ofText? request.target
    = some ⟨Route.baseSegments service.settings.server ++ [segment], query⟩

/-- **The segment is asked for by any way to write it**, behind a prefix that needs no codes. -/
theorem asksForSegment_of_encodes (service : Service) (headers : List (String × String))
    {segment text : String}
    (hplain : ∀ c ∈ service.settings.server.routePrefix.toList,
      Http.isPathChar c = true ∧ c ≠ '%')
    (hne : text ≠ "") (hslash : '/' ∉ text.toList)
    (htext : Http.PathEncodes (Text.encode segment) text.toList) :
    AsksForSegment service
      { target := service.settings.server.routePrefix ++ "/" ++ text, headers } segment :=
  ⟨rfl, [], ((leads_base hplain).append_segment hne hslash htext).ofText?⟩

/-- Any other segment is the name of a file. -/
theorem Route.find?_segment (server : Settings.Server) {segment : String}
    (hfixed : segment ∉ fixedSegments) :
    find? server .get (baseSegments server ++ [segment]) = some (.file segment) := by
  have hroute : ofSegments? [segment] = some (.file segment) := by
    unfold ofSegments?
    split <;> simp_all [fixedSegments]
  rw [find?, dropStart?_append]
  exact hroute

section Segment

variable {service : Service} {state : State} {request : Request} {segment : String}

/-- **A request for a file is answered by its name alone**, whoever asks. -/
theorem serve_segment (h : AsksForSegment service request segment)
    (hfixed : segment ∉ fixedSegments) : (serve service state request).1
      = finishResponse service.settings.server .get (fileResponse service segment) := by
  obtain ⟨query, htarget⟩ := h.reads
  rw [serve_of_target htarget, h.isGet, Route.find?_segment _ hfixed, answer_of_unprotected rfl]
  rfl

/-- What is answered about the file itself. -/
theorem fileResponse_of_name {bytes : List UInt8}
    (hname : service.settings.server.apiSpecName? = some segment)
    (hfile : service.world.node service.settings.server.apiSpecFile = .ok (.file bytes)) :
    (fileResponse service segment).code = 200 ∧ (fileResponse service segment).body = bytes := by
  unfold fileResponse
  dsimp only
  rw [hname, hfile, if_neg (by simp)]
  exact ⟨rfl, rfl⟩

/-- What is answered about any other file. -/
theorem fileResponse_of_ne (hname : service.settings.server.apiSpecName? ≠ some segment) :
    fileResponse service segment = notFoundResponse := by
  unfold fileResponse
  dsimp only
  rw [if_pos (by simpa using hname)]

end Segment

/-- Whether there is a gate has no part in what is asked for. -/
theorem AsksForSegment.withAuth {service : Service} {request : Request} {segment : String}
    (h : AsksForSegment service request segment) (auth : Bool) :
    AsksForSegment (service.withAuth auth) request segment :=
  ⟨h.isGet, h.reads⟩

/-- **One file is public, and no other.** Below the prefix a segment that belongs to no other route
is answered, with or without the gate and whatever the headers are, with the bytes of the file that
describes the routes if it is its name, and with nothing otherwise. Such a segment is asked for by
any way to write it behind the prefix. -/
theorem serve_public_file {service : Service} {name : String} {bytes : List UInt8}
    (hname : service.settings.server.apiSpecName? = some name)
    (hfile : service.world.node service.settings.server.apiSpecFile = .ok (.file bytes))
    {segment : String} (hfixed : segment ∉ fixedSegments) :
    (∀ auth state request, AsksForSegment service request segment →
        let response := (serve (service.withAuth auth) state request).1
        (segment = name → response.code = 200 ∧ response.body = bytes)
          ∧ (segment ≠ name → response.code = 404
            ∧ response.body = Text.encode "\x7b\"status\":\"Not found\"\x7d"))
      ∧ ∀ headers text,
        (∀ c ∈ service.settings.server.routePrefix.toList, Http.isPathChar c = true ∧ c ≠ '%') →
          text ≠ "" → '/' ∉ text.toList →
            Http.PathEncodes (Text.encode segment) text.toList →
              AsksForSegment service
                { target := service.settings.server.routePrefix ++ "/" ++ text, headers }
                segment := by
  refine ⟨fun auth state request hasks => ?_, fun headers text hplain hne hslash htext =>
    asksForSegment_of_encodes service headers hplain hne hslash htext⟩
  intro response
  have hresponse : response = _ := serve_segment (hasks.withAuth auth) hfixed
  rw [hresponse, body_finishResponse]
  refine ⟨?_, fun hne => ?_⟩
  · rintro rfl
    exact fileResponse_of_name hname hfile
  · have hother : fileResponse (service.withAuth auth) segment = notFoundResponse := by
      refine fileResponse_of_ne fun hsegment => ?_
      exact hne (Option.some.inj (hsegment.symm.trans hname))
    rw [hother]
    refine ⟨rfl, ?_⟩
    decide

/-! ## Two services with a file -/

/-- A service that serves the only file there is, under the name it has in the root. -/
def fileService (name : String) (bytes : List UInt8) : Service :=
  { emptyService with
    settings := { server := { auth := true, apiSpecFile := name } }
    world := .ofPlaces [] [([name], .file bytes)] }

/-- Its file is found. -/
theorem node_fileService {name : String} {bytes : List UInt8}
    (hroot : (fileService name bytes).world.root = .directory [(name, .file bytes)])
    (hpath : name.isEmpty = false ∧ name.toList.contains '\x00' = false
      ∧ Path.fits name = true ∧ Path.steps name = [name])
    (hname : name ≠ "." ∧ name ≠ ".." ∧ name.utf8ByteSize ≤ Files.World.maxName) :
    (fileService name bytes).world.node name = .ok (.file bytes) :=
  Files.World.node_in_root hroot rfl hpath hname (if_pos rfl) nofun

/-- A name with a blank and a percent sign in it, asked for without an identity by one of the ways
to write it. -/
theorem serve_public_file_blank :
    let service := fileService "a b%.json" [123, 125]
    let request : Request := { target := "/api/v1/a%20b%25%2ejson" }
    service.settings.server.apiSpecName? = some "a b%.json"
      ∧ service.world.node service.settings.server.apiSpecFile = .ok (.file [123, 125])
      ∧ "a b%.json" ∉ fixedSegments
      ∧ AsksForSegment service request "a b%.json"
      ∧ (serve (service.withAuth true) {} request).1.code = 200
      ∧ (serve (service.withAuth true) {} request).1.body = [123, 125] := by
  intro service request
  have hname : service.settings.server.apiSpecName? = some "a b%.json" := by decide
  have hfile : service.world.node service.settings.server.apiSpecFile = .ok (.file [123, 125]) :=
    node_fileService rfl (by decide +kernel) (by decide)
  have hfixed : "a b%.json" ∉ fixedSegments := by decide
  obtain ⟨hserve, hasked⟩ := serve_public_file hname hfile hfixed
  have hasks : AsksForSegment service request "a b%.json" := by
    have htext : Http.PathEncodes (Text.encode "a b%.json") "a%20b%25%2ejson".toList := by
      have hplain {c : Char} {bytes : List UInt8} {chars : List Char}
          (hc : Http.isPathChar c = true ∧ c ≠ '%') (h : Http.PathEncodes bytes chars) :
          Http.PathEncodes (UInt8.ofNat c.toNat :: bytes) (c :: chars) := .plain hc.1 hc.2 h
      exact hplain (by decide) <| .code rfl rfl rfl <| hplain (by decide) <| .code rfl rfl rfl <|
        .code rfl rfl rfl <| hplain (by decide) <| hplain (by decide) <| hplain (by decide) <|
        hplain (by decide) .nil
    have htarget : service.settings.server.routePrefix ++ "/" ++ "a%20b%25%2ejson"
        = request.target := by
      decide
    have hasks := hasked [] "a%20b%25%2ejson" (List.forall_iff_forall_mem.1 (by decide))
      (by decide) (by decide) htext
    rwa [htarget] at hasks
  obtain ⟨hcode, hbody⟩ := (hserve true {} request hasks).1 rfl
  exact ⟨hname, hfile, hfixed, hasks, hcode, hbody⟩

/-- **A file that is called as another route is out of reach**: the route answers, and asks for an
identity. -/
theorem groups_file_out_of_reach :
    let service := fileService "groups" [120]
    let request : Request := { target := "/api/v1/groups" }
    service.settings.server.apiSpecName? = some "groups"
      ∧ service.world.node service.settings.server.apiSpecFile = .ok (.file [120])
      ∧ AsksForSegment service request "groups"
      ∧ (serve service {} request).1.code = 401 := by
  intro service request
  have hpath : Target.Leads "/api/v1/groups" ["api", "v1", "groups"] :=
    Target.leads_plain (by decide) (List.forall_iff_forall_mem.1 (by decide))
  have hsegments : ["api", "v1", "groups"]
      = Route.baseSegments service.settings.server ++ ["groups"] := by
    decide
  have hasks : AsksFor service request .groups ⟨["api", "v1", "groups"], []⟩ :=
    ⟨rfl, rfl, hpath.ofText?, hsegments⟩
  have hsegment : AsksForSegment service request "groups" := by
    refine ⟨rfl, [], ?_⟩
    rw [← hsegments]
    exact hpath.ofText?
  refine ⟨by decide, node_fileService rfl (by decide +kernel) (by decide), hsegment, ?_⟩
  rw [hasks.serve_of_refused (identify_of_missing rfl rfl)]
  rfl

end Rulebook.Service
