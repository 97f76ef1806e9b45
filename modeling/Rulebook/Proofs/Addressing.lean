import Rulebook.Proofs.Gate
import Rulebook.Proofs.JsonText
import Rulebook.Proofs.TargetText

/-!
# Every rule can be asked for

The status of a rule can be asked for by the name of the rule, whatever is in the name. Parameters
are separated first, from each other and from their names, and decoded afterwards
(`Http.Target.queryOf_parameters`), so no name adds a parameter, and the filter selects exactly the
names that were meant (`StatusFilter.get?_apply_named`). What is answered is read back as it is in
the snapshot, and nothing else is answered (`Service.serve_named`).
-/

namespace Rulebook

open Rulebook.Document
open Rulebook.Json (Kept)

/-! ## Selecting by name -/

namespace StatusFilter

/-- Parameters with names of rules ask for these rules. -/
theorem ofParameters_named (names : List String) :
    ofParameters (names.map fun name => ("rule", name)) = { rules := names } := by
  suffices h : ∀ done, (names.map fun name => ("rule", name)).foldl add { rules := done }
      = { rules := done ++ names } from h []
  induction names with
  | nil => simp
  | cons name names ih =>
    intro done
    rw [List.map_cons, List.foldl_cons]
    have hadd : add { rules := done } ("rule", name) = { rules := done ++ [name] } := by
      simp [add]
    rw [hadd, ih, List.append_assoc]
    rfl

/-- **Exactly the rules that are named are selected.** -/
theorem get?_apply_named {names : List String} (hne : names ≠ []) (statuses : StatusMap)
    (name : String) : (apply { rules := names } statuses).get? name
      = if name ∈ names then statuses.get? name else none := by
  have hempty : isEmpty { rules := names } = false := by
    simpa [isEmpty] using hne
  rw [apply, if_neg (by simp [hempty])]
  refine Option.ext fun status => ?_
  rw [Table.get?_filter_eq_some_iff]
  have hselects : selects { rules := names } name status = names.contains name := by
    unfold selects wants
    cases status.category <;> rfl
  rw [hselects, List.contains_iff_mem]
  split <;> simp [*]

end StatusFilter

/-! ## What is shown of a status -/

namespace Status

/-- **What is shown of a status**: its three parts, in the order of their names. -/
def shown (status : Status) : Data :=
  .table [("loaded", .flag status.isLoaded), ("parsing_error", .text status.error),
    ("type", .text status.category.name)]

/-- The parts are put in order by their names. -/
theorem sorted_toData (status : Status) : status.toData.sorted = status.shown := by
  rw [toData, Data.sorted_table]
  simp only [List.map, Data.sorted, Table.ofList, List.foldl, Table.insert, Table.place,
    Table.empty, String.reduceLT, String.reduceEq, if_true, if_false, shown]

/-- They are in order already in what is shown. -/
theorem sorted_shown (status : Status) : status.shown.sorted = status.shown := by
  have hkeys : ["loaded", "parsing_error", "type"].Pairwise (· < ·) := by decide
  refine Data.sorted_eq_self hkeys ?_
  simp [Data.sorted]

/-- What is shown of a status is kept by JSON. -/
theorem kept_shown (status : Status) (depth : Nat) : Kept (depth + 1) status.shown := by
  refine .table ?_
  simp [Kept.flag, Kept.text]

end Status

namespace Service

open Rulebook.Http (Request Response Target)

/-- The answer about some statuses: all that is shown of them, each under its name. -/
def statusesAnswer (statuses : StatusMap) : Data :=
  .table [("rules", .table (statuses.map Status.shown).entries), ("status", .text "ok")]

/-- What is answered about statuses. -/
theorem okWith_statuses (statuses : StatusMap) :
    Answer.okWith "rules" (.ofTable Status.toData statuses) = statusesAnswer statuses := by
  rw [Answer.okWith, Data.sorted_ofTable]
  simp only [Status.sorted_toData, Table.ofList, List.foldl, Table.insert, Table.place,
    Table.empty, String.reduceLT, String.reduceEq, if_true, if_false, statusesAnswer]

/-- The answer is in order. -/
theorem sorted_statusesAnswer (statuses : StatusMap) :
    (statusesAnswer statuses).sorted = statusesAnswer statuses := by
  have hstatuses : (Data.table (statuses.map Status.shown).entries).sorted
      = .table (statuses.map Status.shown).entries := by
    refine (Data.sorted_ofTable Status.shown statuses).trans ?_
    simp only [Status.sorted_shown]
  have hkeys : ["rules", "status"].Pairwise (· < ·) := by decide
  refine Data.sorted_eq_self hkeys ?_
  exact List.forall_mem_cons.2 ⟨hstatuses, List.forall_mem_singleton.2 rfl⟩

/-- The answer is kept by JSON. -/
theorem kept_statusesAnswer (statuses : StatusMap) (depth : Nat) :
    Kept (depth + 3) (statusesAnswer statuses) := by
  have hstatuses : Kept (depth + 2) (.table (statuses.map Status.shown).entries) := by
    refine .table fun entry hentry => ?_
    obtain ⟨⟨name, status⟩, -, rfl⟩ := List.mem_map.1 hentry
    exact status.kept_shown depth
  refine .table ?_
  simp [Kept.text, hstatuses]

/-- **The statuses that are answered are read back**, each under its name. -/
theorem read_statuses (statuses : StatusMap) :
    Json.readBytes Json.readData (dataResponse "rules" (.ofTable Status.toData statuses)).body
      = .ok (statusesAnswer statuses) := by
  rw [dataResponse, okWith_statuses, jsonResponse]
  exact (Json.readBytes_compact (kept_statusesAnswer statuses 124)).trans
    (congrArg Except.ok (sorted_statusesAnswer statuses))

/-- **The path of the statuses as it is written**, when nothing in the prefix needs a code. -/
theorem leads_statuses {server : Settings.Server}
    (h : ∀ c ∈ server.routePrefix.toList, Http.isPathChar c = true ∧ c ≠ '%') :
    Target.Leads (server.routePrefix ++ "/status") (Route.baseSegments server ++ ["status"]) := by
  have hplain : ∀ c ∈ "status".toList, Http.isPathChar c = true ∧ c ≠ '%' :=
    List.forall_iff_forall_mem.1 (by decide)
  have hpath : server.routePrefix ++ "/" ++ "status" = server.routePrefix ++ "/status" :=
    String.append_assoc
  rw [← hpath]
  exact (leads_base h).append_segment (by decide) (by decide) (Http.pathEncodes_plain hplain)

/-- **Every rule can be asked for by its name.** A request for the statuses of some rules, each name
given by the codes of its bytes, is answered with the statuses of exactly those of the rules that
there are, and these are read back as they are: no name means another one, and none is out of
reach. -/
theorem serve_named {service : Service} (state : State) {request : Request} {path : String}
    {names texts : List String} {who : Option Identity}
    (hpath : Target.Leads path (Route.baseSegments service.settings.server ++ ["status"]))
    (hnames : names ≠ [])
    (htexts : List.Forall₂ (fun name text => Http.PercentEncodes (Text.encode name) text.toList)
      names texts)
    (hmethod : request.method = .get)
    (htarget : request.target = path ++ "?" ++ "&".intercalate (texts.map ("rule=" ++ ·)))
    (hwho : identify service.settings request = .ok who) :
    let response := (serve service state request).1
    response.code = 200 ∧ response.mediaType = some Http.jsonType
      ∧ ∃ rules : Table Data,
        Json.readBytes Json.readData response.body
            = .ok (.table [("rules", .table rules.entries), ("status", .text "ok")])
          ∧ ∀ name, rules.get? name = if name ∈ names
              then (service.snapshot.status.get? name).map Status.shown else none := by
  intro response
  have hname : Target.PlainName "rule" := List.forall_iff_forall_mem.1 (by decide)
  have hvalues : List.Forall₂ (fun name text => Http.PercentEncodes (Text.encode name) text) names
      (texts.map String.toList) := List.forall₂_map_right_iff.2 htexts
  have hquery : ("&".intercalate (texts.map ("rule=" ++ ·))).toList
      = ['&'].intercalate ((texts.map String.toList).map (Target.parameter "rule")) := by
    rw [String.toList_intercalate, List.map_map, List.map_map]
    refine congrArg _ (List.map_congr_left fun text _ => ?_)
    exact String.toList_append
  -- What is written in the target is what is asked for.
  have hread : Target.ofText? request.target
      = some ⟨Route.baseSegments service.settings.server ++ ["status"],
          names.map fun name => ("rule", name)⟩ := by
    rw [htarget, hpath.ofText?_query, hquery, Target.queryOf_parameters hname hvalues hnames]
    rw [hquery]
    refine Text.forall_mem_intercalate (by decide) fun piece hpiece c hc => ?_
    exact (Target.parameters_chars hname hvalues piece hpiece c hc).1
  -- So the route is that of the statuses, and the filter has the names.
  have hasks : AsksFor service request .status _ := ⟨rfl, hmethod, hread, rfl⟩
  have hresponse : response = _ := hasks.serve_of_passed hwho
  refine ⟨?_, ?_, (StatusFilter.apply { rules := names } service.snapshot.status).map Status.shown,
    ?_, fun name => ?_⟩
  · rw [hresponse]
    rfl
  · rw [hresponse]
    rfl
  · rw [hresponse, body_finishResponse, routeResponse, StatusFilter.ofParameters_named]
    exact read_statuses _
  · rw [Table.get?_map, StatusFilter.get?_apply_named hnames]
    split <;> rfl

/-- A service with one rule, whose name has marks of queries in it. -/
def marksService : Service :=
  { emptyService.withAuth false with
    snapshot := { status := ⟨[("&=", .loaded .internal)], List.pairwise_singleton ..⟩ } }

/-- The rule is asked for, and another one that there is not. -/
theorem serve_named_marks :
    let request : Request := { target := "/api/v1/status?rule=%26%3d&rule=%C3%A9" }
    request.target = marksService.settings.server.routePrefix ++ "/status" ++ "?"
        ++ "&".intercalate (["%26%3d", "%C3%A9"].map ("rule=" ++ ·))
      ∧ ∃ rules : Table Data,
        Json.readBytes Json.readData (serve marksService {} request).1.body
            = .ok (.table [("rules", .table rules.entries), ("status", .text "ok")])
          ∧ rules.get? "&=" = some (Status.shown (.loaded .internal)) ∧ rules.get? "é" = none := by
  intro request
  have hpath : Target.Leads (marksService.settings.server.routePrefix ++ "/status")
      (Route.baseSegments marksService.settings.server ++ ["status"]) :=
    leads_statuses (List.forall_iff_forall_mem.1 (by decide))
  have hmarks : Http.PercentEncodes [38, 61] ['%', '2', '6', '%', '3', 'd'] :=
    .cons rfl rfl rfl (.cons rfl rfl rfl .nil)
  have hletter : Http.PercentEncodes [195, 169] ['%', 'C', '3', '%', 'A', '9'] :=
    .cons rfl rfl rfl (.cons rfl rfl rfl .nil)
  have htexts : List.Forall₂
      (fun name text => Http.PercentEncodes (Text.encode name) text.toList)
      ["&=", "é"] ["%26%3d", "%C3%A9"] := .cons hmarks (.cons hletter .nil)
  have htarget : request.target = marksService.settings.server.routePrefix ++ "/status" ++ "?"
      ++ "&".intercalate (["%26%3d", "%C3%A9"].map ("rule=" ++ ·)) := by
    decide
  obtain ⟨-, -, rules, hread, hrules⟩ := serve_named {} hpath (by simp) htexts rfl
    htarget (identify_of_open rfl)
  exact ⟨htarget, rules, hread, (hrules "&=").trans rfl, (hrules "é").trans rfl⟩

end Service

end Rulebook
