import Rulebook.Proofs.Exposition
import Rulebook.Proofs.Gate

/-!
# Requests are conserved

Every request whose target can be read is counted once under its route and once under the code of
its answer, whatever becomes of it: found or not, refused or not. A request whose target cannot be
read never reaches the counters.

One request adds one to one counter of each table (`tally_serve`); so after any number of requests
the tables hold exactly the labels of the requests that were heard, each as often as it occurs
(`tally_serveAll`, `Tally.get?_incrementAll`). No two routes share a label
(`Route.label_eq_label_iff`), so the counters tell the routes apart. A request for the counters is
answered with those of the requests before it, and counted afterwards (`counted_serveAll`).
-/

namespace Rulebook

open Rulebook.Http (Request Response Target)

/-- Whether the target of a request can be read. -/
def Http.Request.isReadable (request : Request) : Bool := (Target.ofText? request.target).isSome

namespace Service

/-! ## Counting labels -/

namespace Tally

/-- What a table has counted under a label. -/
def count (table : Table Nat) (label : String) : Nat := (table.get? label).getD 0

/-- A table after some labels were counted. -/
def incrementAll (table : Table Nat) (labels : List String) : Table Nat :=
  labels.foldl increment table

/-- One label is counted. -/
theorem count_increment (table : Table Nat) (label other : String) :
    count (increment table label) other = count table other + if label = other then 1 else 0 := by
  rw [count, increment, Table.get?_insert]
  split
  next heq => rw [← heq]; rfl
  · rfl

/-- **Replacing what is under a name** changes the sum by the difference. -/
theorem sum_place (name : String) (value : Nat) {entries : List (String × Nat)}
    (h : entries.Pairwise fun a b => a.1 < b.1) :
    ((Table.place name value entries).map (·.2)).sum + (Table.find? name entries).getD 0
      = (entries.map (·.2)).sum + value := by
  induction entries with
  | nil => simp [Table.place, Table.find?]
  | cons entry entries ih =>
    obtain ⟨key, old⟩ := entry
    obtain ⟨hfirst, hentries⟩ := List.pairwise_cons.1 h
    rw [Table.place]
    split
    next hlt =>
      -- The name comes before all others, so nothing is replaced.
      have hnone : Table.find? name ((key, old) :: entries) = none := by
        refine Option.eq_none_iff_forall_ne_some.2 fun found hfound => ?_
        rcases List.mem_cons.1 (Table.mem_of_find? hfound) with heq | hmem
        · obtain ⟨rfl, -⟩ := Prod.mk.inj heq
          exact String.lt_irrefl _ hlt
        · exact String.lt_irrefl _ (String.lt_trans hlt (hfirst _ hmem))
      rw [hnone]
      simp only [List.map_cons, List.sum_cons, Option.getD_none]
      omega
    · split
      next heq =>
        rw [Table.find?, if_pos heq.symm]
        simp only [List.map_cons, List.sum_cons, Option.getD_some]
        omega
      next hne =>
        have hrest := ih hentries
        rw [Table.find?, if_neg (Ne.symm hne)]
        simp only [List.map_cons, List.sum_cons]
        omega

/-- The sum of counters is the sum of a list. -/
theorem total_eq_sum (table : Table Nat) : total table = (table.entries.map (·.2)).sum := rfl

/-- **Counting one label adds one to the sum.** -/
theorem total_increment (table : Table Nat) (label : String) :
    total (increment table label) = total table + 1 := by
  have hsum := sum_place label ((table.get? label).getD 0 + 1) table.ascending
  have hentries : (increment table label).entries
      = Table.place label ((table.get? label).getD 0 + 1) table.entries := rfl
  have hget : (table.get? label).getD 0 = (Table.find? label table.entries).getD 0 := rfl
  rw [total_eq_sum, total_eq_sum, hentries]
  omega

/-- **What a table holds after labels were counted**: each label that occurs, as often as it
occurs more than before. -/
theorem get?_incrementAll (table : Table Nat) (labels : List String) (label : String) :
    (incrementAll table labels).get? label
      = if label ∈ labels then some (count table label + labels.count label)
        else table.get? label := by
  induction labels generalizing table with
  | nil => rfl
  | cons first labels ih =>
    rw [incrementAll, List.foldl_cons, ← incrementAll, ih, count_increment, increment,
      Table.get?_insert]
    by_cases hfirst : first = label
    · subst hfirst
      by_cases hmem : first ∈ labels
      · rw [if_pos hmem, if_pos (List.mem_cons_self ..), if_pos rfl, List.count_cons_self]
        congr 1
        omega
      · rw [if_neg hmem, if_pos (List.mem_cons_self ..), if_pos rfl, List.count_cons_self,
          List.count_eq_zero.2 hmem]
        rfl
    · have hiff : label ∈ first :: labels ↔ label ∈ labels := by
        simp [List.mem_cons, Ne.symm hfirst]
      simp only [hiff, if_neg hfirst, List.count_cons_of_ne hfirst, Nat.add_zero]

/-- **The sum counts the labels.** -/
theorem total_incrementAll (table : Table Nat) (labels : List String) :
    total (incrementAll table labels) = total table + labels.length := by
  induction labels generalizing table with
  | nil => rfl
  | cons first labels ih =>
    rw [incrementAll, List.foldl_cons, ← incrementAll, ih, total_increment, List.length_cons]
    omega

end Tally

/-! ## Labels of routes -/

namespace Route

/-- A route has at most one segment behind the base, and it is not empty. -/
theorem pattern_cases (route : Route) :
    route.pattern = [] ∨ ∃ word, word ≠ "" ∧ route.pattern = [word] := by
  cases route with
  | main => exact .inl rfl
  | _ => exact .inr ⟨_, by decide, rfl⟩

/-- Segments that are joined behind the same ones tell what they are, if there is at most one. -/
theorem intercalate_append_inj {base : List (List Char)} {segments others : List (List Char)}
    (hsegments : segments = [] ∨ ∃ word, word ≠ [] ∧ segments = [word])
    (hothers : others = [] ∨ ∃ word, word ≠ [] ∧ others = [word])
    (h : ['/'].intercalate (base ++ segments) = ['/'].intercalate (base ++ others)) :
    segments = others := by
  induction base with
  | nil =>
    have hjoin {segments : List (List Char)}
        (hsegments : segments = [] ∨ ∃ word, word ≠ [] ∧ segments = [word]) :
        segments = if ['/'].intercalate segments = [] then []
          else [['/'].intercalate segments] := by
      rcases hsegments with rfl | ⟨word, hword, rfl⟩
      · rfl
      · rw [List.intercalate_singleton, if_neg hword]
    rw [List.nil_append, List.nil_append] at h
    rw [hjoin hsegments, hjoin hothers, h]
  | cons first base ih =>
    rw [List.cons_append, List.cons_append] at h
    by_cases hnone : base ++ segments = [] <;> by_cases hnone' : base ++ others = []
    · rw [(List.append_eq_nil_iff.1 hnone).2, (List.append_eq_nil_iff.1 hnone').2]
    · have hlength := congrArg List.length h
      rw [hnone, List.intercalate_singleton, List.intercalate_cons_of_ne_nil hnone'] at hlength
      simp at hlength
    · have hlength := congrArg List.length h
      rw [hnone', List.intercalate_singleton, List.intercalate_cons_of_ne_nil hnone] at hlength
      simp at hlength
    · rw [List.intercalate_cons_of_ne_nil hnone, List.intercalate_cons_of_ne_nil hnone'] at h
      exact ih (List.append_cancel_left h)

/-- **No two routes share a label**, except those of files. -/
theorem label_eq_label_iff (server : Settings.Server) (route other : Route) :
    route.label server = other.label server ↔ route.pattern = other.pattern := by
  have hcases (route : Route) : route.pattern.map String.toList = []
      ∨ ∃ word, word ≠ [] ∧ route.pattern.map String.toList = [word] := by
    rcases pattern_cases route with h | ⟨word, hword, h⟩
    · rw [h]
      exact .inl rfl
    · rw [h]
      exact .inr ⟨word.toList, mt String.toList_eq_nil_iff.1 hword, rfl⟩
  constructor
  · intro h
    have hchars := congrArg String.toList h
    rw [label, label, String.toList_append, String.toList_append, String.toList_intercalate,
      String.toList_intercalate, List.map_append, List.map_append] at hchars
    refine List.map_injective_iff.2 (fun _ _ => String.toList_inj.1) ?_
    exact intercalate_append_inj (hcases route) (hcases other) (List.append_cancel_left hchars)
  · intro h
    rw [label, label, h]

/-- No route has the label of requests about nothing. -/
theorem label_ne_unmatched (server : Settings.Server) (route : Route) :
    route.label server ≠ Tally.unmatched := by
  intro h
  have hchars := congrArg String.toList h
  rw [label, String.toList_append] at hchars
  exact absurd (List.cons.inj hchars).1 (by decide)

end Route

/-! ## What one request adds -/

/-- The route of a request, if its target can be read and a route is about it. -/
def routeOf? (service : Service) (request : Request) : Option Route :=
  (Target.ofText? request.target).bind fun target =>
    Route.find? service.settings.server request.method target.segments

/-- The label under which a request is counted. -/
def labelOf (service : Service) (request : Request) : String :=
  match service.routeOf? request with
  | none => Tally.unmatched
  | some route => route.label service.settings.server

section Labels

variable {service : Service} {request : Request}

/-- A request is counted under the label of a route if it is about that route. -/
theorem labelOf_eq_label_iff (route : Route) :
    service.labelOf request = route.label service.settings.server
      ↔ (service.routeOf? request).map Route.pattern = some route.pattern := by
  unfold labelOf
  cases service.routeOf? request with
  | none => exact iff_of_false (Ne.symm (route.label_ne_unmatched _)) nofun
  | some found => exact (Route.label_eq_label_iff _ found route).trans Option.some_inj.symm

/-- Otherwise it is about none. -/
theorem labelOf_eq_unmatched_iff :
    service.labelOf request = Tally.unmatched ↔ service.routeOf? request = none := by
  unfold labelOf
  cases service.routeOf? request with
  | none => exact iff_of_true rfl rfl
  | some found => exact iff_of_false (found.label_ne_unmatched _) nofun

/-- There are no other labels. -/
theorem labelOf_cases : service.labelOf request = Tally.unmatched
    ∨ ∃ route : Route, service.labelOf request = route.label service.settings.server := by
  unfold labelOf
  cases service.routeOf? request with
  | none => exact .inl rfl
  | some found => exact .inr ⟨found, rfl⟩

end Labels

/-- The target of a request that is not readable cannot be read. -/
theorem ofText?_of_not_isReadable {request : Request} (h : request.isReadable = false) :
    Target.ofText? request.target = none := by
  rwa [Http.Request.isReadable, Option.isSome_eq_false_iff, Option.isNone_iff_eq_none] at h

/-- **What one request adds**: one to the counter of its label, and one to that of the code it is
answered with. -/
theorem tally_serve {service : Service} {state : State} {request : Request}
    (h : request.isReadable = true) : (serve service state request).2.tally
      = state.tally.record (service.labelOf request) (serve service state request).1.code := by
  obtain ⟨target, htarget⟩ := Option.isSome_iff_exists.1 h
  have hroute : service.routeOf? request
      = Route.find? service.settings.server request.method target.segments := by
    rw [routeOf?, htarget, Option.bind_some]
  rw [serve_of_target htarget, labelOf, hroute, serve, htarget]
  dsimp only
  cases Route.find? service.settings.server request.method target.segments <;> rfl

/-! ## What a run adds -/

/-- The first request is answered, and then the others. -/
theorem serveAll_cons (service : Service) (state : State) (request : Request)
    (rest : List Request) : serveAll service state (request :: rest)
      = ((serve service state request).1 ::
          (serveAll service (serve service state request).2 rest).1,
        (serveAll service (serve service state request).2 rest).2) :=
  rfl

/-- **What was heard**: the requests whose targets can be read, each with its response. -/
def heard (service : Service) (state : State) (requests : List Request) :
    List (Request × Response) :=
  (requests.zip (serveAll service state requests).1).filter fun exchange => exchange.1.isReadable

/-- The labels and the codes of what was heard. -/
theorem tally_serveAll (service : Service) (state : State) (requests : List Request) :
    (serveAll service state requests).2.tally =
      { endpoints := Tally.incrementAll state.tally.endpoints
          ((service.heard state requests).map fun exchange => service.labelOf exchange.1)
        codes := Tally.incrementAll state.tally.codes
          ((service.heard state requests).map fun exchange => toString exchange.2.code) } := by
  induction requests generalizing state with
  | nil => rfl
  | cons request rest ih =>
    cases hreadable : request.isReadable with
    | true =>
      have hheard : service.heard state (request :: rest)
          = (request, (serve service state request).1)
            :: service.heard (serve service state request).2 rest := by
        rw [heard, serveAll_cons, List.zip_cons_cons]
        exact List.filter_cons_of_pos hreadable
      rw [serveAll_cons, ih, hheard, tally_serve hreadable]
      rfl
    | false =>
      have htarget := ofText?_of_not_isReadable hreadable
      have hheard : service.heard state (request :: rest)
          = service.heard (serve service state request).2 rest := by
        rw [heard, serveAll_cons, List.zip_cons_cons]
        exact List.filter_cons_of_neg (by simp [hreadable])
      rw [serveAll_cons, ih, hheard, serve_of_unreadable htarget]

/-- Every request has its response. -/
theorem length_serveAll (service : Service) (state : State) (requests : List Request) :
    (serveAll service state requests).1.length = requests.length := by
  induction requests generalizing state with
  | nil => rfl
  | cons request rest ih =>
    rw [serveAll_cons, List.length_cons, ih, List.length_cons]

/-- A response is one that its request was given in some state. -/
theorem exists_serve_of_mem_zip {service : Service} {state : State} {requests : List Request}
    {exchange : Request × Response}
    (h : exchange ∈ requests.zip (serveAll service state requests).1) :
    ∃ state, exchange.2 = (serve service state exchange.1).1 := by
  induction requests generalizing state with
  | nil => cases h
  | cons request rest ih =>
    rw [serveAll_cons, List.zip_cons_cons] at h
    rcases List.mem_cons.1 h with rfl | h
    · exact ⟨state, rfl⟩
    · exact ih h

/-- The requests that were heard are those whose targets can be read. -/
theorem map_fst_heard (service : Service) (state : State) (requests : List Request) :
    (service.heard state requests).map Prod.fst = requests.filter (·.isReadable) := by
  have hfst : (requests.zip (serveAll service state requests).1).map Prod.fst = requests :=
    List.map_fst_zip (Nat.le_of_eq (length_serveAll service state requests).symm)
  rw [heard]
  conv_rhs => rw [← hfst, List.filter_map]
  rfl

/-! ## All requests -/

/-- A counter that is there only when it has counted something. -/
def shown (n : Nat) : Option Nat := if n = 0 then none else some n

/-- **The counters agree with what happened**: with the requests, and with the responses they were
given. A request whose target cannot be read is not counted. -/
structure Counted (service : Service) (requests : List Request) (responses : List Response)
    (tally : Tally) : Prop where
  /-- Every request has its response. -/
  answered : responses.length = requests.length
  /-- A request whose target cannot be read is refused. -/
  unreadable : ∀ exchange ∈ requests.zip responses, exchange.1.isReadable = false →
    exchange.2 = jsonResponse 400 (Answer.status "Bad Request")
  /-- The counters of routes add up to the other requests. -/
  endpoints : Tally.total tally.endpoints = requests.countP (·.isReadable)
  /-- So do the counters of codes. -/
  codes : Tally.total tally.codes = requests.countP (·.isReadable)
  /-- A route has been counted as often as a request was about it. -/
  route : ∀ route : Route, tally.endpoints.get? (route.label service.settings.server)
    = shown (requests.countP fun request => request.isReadable
        && (service.routeOf? request).map Route.pattern = some route.pattern)
  /-- So has the lack of a route. -/
  unmatched : tally.endpoints.get? Tally.unmatched
    = shown (requests.countP fun request => request.isReadable
        && service.routeOf? request = none)
  /-- There is no other counter among these. -/
  labels : ∀ label, tally.endpoints.contains label = true → label = Tally.unmatched
    ∨ ∃ route : Route, label = route.label service.settings.server
  /-- A code has been counted as often as it was answered. -/
  code : ∀ code : Nat, tally.codes.get? (toString code)
    = shown ((requests.zip responses).countP fun exchange => exchange.1.isReadable
        && exchange.2.code = code)
  /-- There is no other counter among these either. -/
  codeLabels : ∀ label, tally.codes.contains label = true → ∃ code : Nat, label = toString code

/-- What a fresh table holds after labels were counted. -/
theorem get?_incrementAll_empty (labels : List String) (label : String) :
    (Tally.incrementAll ∅ labels).get? label = shown (labels.count label) := by
  rw [Tally.get?_incrementAll, shown]
  split
  next hmem =>
    rw [if_neg (Nat.ne_of_gt (List.count_pos_iff.2 hmem))]
    exact congrArg some (Nat.zero_add _)
  next hmem =>
    rw [if_pos (List.count_eq_zero.2 hmem)]
    rfl

/-- It holds nothing else. -/
theorem mem_of_contains_incrementAll {labels : List String} {label : String}
    (h : (Tally.incrementAll ∅ labels).contains label = true) : label ∈ labels := by
  rw [Table.contains, Tally.get?_incrementAll] at h
  split at h
  · assumption
  · cases h

/-- What the counters hold after any requests. -/
theorem tally_served (service : Service) (requests : List Request) :
    (service.served requests).tally =
      { endpoints := Tally.incrementAll ∅
          ((requests.filter (·.isReadable)).map service.labelOf)
        codes := Tally.incrementAll ∅
          ((service.heard {} requests).map fun exchange => toString exchange.2.code) } := by
  refine (tally_serveAll service {} requests).trans ?_
  rw [← map_fst_heard service {} requests, List.map_map]
  rfl

/-- Counting among the requests that were heard. -/
theorem count_labels (service : Service) (requests : List Request) {label : String}
    {p : Request → Bool} (hp : ∀ request, service.labelOf request = label ↔ p request = true) :
    ((requests.filter (·.isReadable)).map service.labelOf).count label
      = requests.countP fun request => request.isReadable && p request := by
  rw [List.count, List.countP_map, List.countP_filter]
  refine List.countP_congr fun request _ => ?_
  simp [hp, and_comm]

/-- **After any requests the counters agree with them.** -/
theorem counted_serveAll (service : Service) (requests : List Request) :
    Counted service requests (serveAll service {} requests).1 (service.served requests).tally where
  answered := length_serveAll service {} requests
  unreadable exchange hexchange hreadable := by
    obtain ⟨state, hresponse⟩ := exists_serve_of_mem_zip hexchange
    rw [hresponse, serve_of_unreadable (ofText?_of_not_isReadable hreadable)]
  endpoints := by
    rw [tally_served, Tally.total_incrementAll, List.length_map, List.countP_eq_length_filter]
    exact Nat.zero_add _
  codes := by
    rw [tally_served, Tally.total_incrementAll, List.length_map, List.countP_eq_length_filter,
      ← map_fst_heard service {} requests, List.length_map]
    exact Nat.zero_add _
  route route := by
    rw [tally_served, get?_incrementAll_empty]
    refine congrArg shown (count_labels service requests fun request => ?_)
    rw [decide_eq_true_iff]
    exact labelOf_eq_label_iff route
  unmatched := by
    rw [tally_served, get?_incrementAll_empty]
    refine congrArg shown (count_labels service requests fun request => ?_)
    rw [decide_eq_true_iff]
    exact labelOf_eq_unmatched_iff
  labels label hlabel := by
    rw [tally_served] at hlabel
    obtain ⟨request, -, rfl⟩ := List.mem_map.1 (mem_of_contains_incrementAll hlabel)
    exact labelOf_cases
  code code := by
    rw [tally_served, get?_incrementAll_empty, List.count, List.countP_map, heard,
      List.countP_filter]
    refine congrArg shown (List.countP_congr fun exchange _ => ?_)
    simp only [Function.comp_apply, Bool.and_eq_true, beq_iff_eq, Decimal.toString_inj,
      decide_eq_true_eq]
    exact and_comm
  codeLabels label hlabel := by
    rw [tally_served] at hlabel
    obtain ⟨exchange, -, rfl⟩ := List.mem_map.1 (mem_of_contains_incrementAll hlabel)
    exact ⟨exchange.2.code, rfl⟩

/-- **What is answered about the counters**: the text of it, read back, has every count that there
is, each under the name of its counter. -/
structure Exposes (metrics : Settings.Metrics) (tally : Tally) (response : Response) : Prop where
  /-- There is an answer. -/
  code : response.code = 200
  /-- It is a text. -/
  mediaType : response.mediaType = some Http.plainType
  /-- The counts are in it. -/
  text : ∃ text, response.body = Text.encode text
    ∧ Sample.counts (Tally.requestsName metrics) text = tally.endpoints.entries
    ∧ Sample.counts (Tally.codesName metrics) text = tally.codes.entries
    ∧ Sample.counts (Tally.timesName metrics) text = tally.endpoints.entries

/-- **Requests are conserved.** After any requests the counters of routes add up to the number of
those whose targets can be read, and so do the counters of codes; each counter has counted what its
label says. Who asks for the counters next, and passes, is shown exactly these counts. -/
theorem requests_conserved (service : Service) (requests : List Request) :
    let state := service.served requests
    Counted service requests (serveAll service {} requests).1 state.tally
      ∧ ∀ request target who, AsksFor service request .metrics target →
          identify service.settings request = .ok who →
            Exposes service.settings.metrics state.tally (serve service state request).1 := by
  refine ⟨counted_serveAll service requests, fun request target who hasks hwho => ?_⟩
  rw [hasks.serve_of_passed hwho]
  exact ⟨rfl, rfl, _, rfl, Tally.counts_text _ _⟩

/-- A request for the groups, and one for a path with a blank in it: the first is counted, and shown
to who asks for the counters. -/
theorem requests_conserved_groups :
    let service := emptyService.withAuth false
    let requests : List Request :=
      [{ target := "/api/v1/groups" }, { target := "/api/v1/a b" }]
    let request : Request := { target := "/api/v1/metrics" }
    AsksFor service request .metrics ⟨["api", "v1", "metrics"], []⟩
      ∧ identify service.settings request = .ok none
      ∧ ∃ text, (serve service (service.served requests) request).1.body = Text.encode text
        ∧ ("/api/v1/groups", 1)
          ∈ Sample.counts (Tally.requestsName service.settings.metrics) text := by
  intro service requests request
  have hleads {path : String} {segments : List String} (hslash : path.toList.head? = some '/')
      (hplain : ∀ c ∈ path.toList, Http.isPathChar c = true ∧ c ≠ '%')
      (hsegments : Path.components path = segments) :
      Target.ofText? path = some ⟨segments, []⟩ :=
    (hsegments ▸ Target.leads_plain hslash hplain).ofText?
  have hgroups : Target.ofText? "/api/v1/groups" = some ⟨["api", "v1", "groups"], []⟩ :=
    hleads (by decide) (List.forall_iff_forall_mem.1 (by decide)) (by decide)
  have hmetrics : Target.ofText? "/api/v1/metrics" = some ⟨["api", "v1", "metrics"], []⟩ :=
    hleads (by decide) (List.forall_iff_forall_mem.1 (by decide)) (by decide)
  have hblank : Target.ofText? "/api/v1/a b" = none := by decide
  have hasks : AsksFor service request .metrics ⟨["api", "v1", "metrics"], []⟩ :=
    ⟨rfl, rfl, hmetrics, by decide⟩
  have hwho : identify service.settings request = .ok none := identify_of_open rfl
  obtain ⟨hcounted, hexposes⟩ := requests_conserved service requests
  obtain ⟨text, hbody, hrequests, -, -⟩ := (hexposes request _ none hasks hwho).text
  refine ⟨hasks, hwho, text, hbody, ?_⟩
  rw [hrequests, ← Table.get?_eq_some_iff]
  have hlabel : Route.label service.settings.server .groups = "/api/v1/groups" := by decide
  have hroute : service.routeOf? { target := "/api/v1/groups" } = some .groups := by
    rw [routeOf?, hgroups, Option.bind_some]
    decide
  rw [← hlabel, hcounted.route .groups]
  simp only [requests, List.countP_cons, List.countP_nil, Http.Request.isReadable, hgroups, hroute,
    hblank]
  decide

/-- **A request for a path with a blank in it is not counted.** -/
theorem requests_not_conserved_blank :
    let requests : List Request := [{ target := "/api/v1/a b" }]
    Tally.total (emptyService.served requests).tally.endpoints ≠ requests.length := by
  intro requests
  rw [(counted_serveAll emptyService requests).endpoints]
  decide

end Service

end Rulebook
