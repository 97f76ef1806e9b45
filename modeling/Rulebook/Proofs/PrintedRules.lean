import Rulebook.Command.Run
import Rulebook.Proofs.Bookkeeping
import Rulebook.Proofs.Gate

/-!
# The rules that are printed are the rules that are served

Rules leave the program in two ways: they are printed by a command, in JSON, and they are served, in
MessagePack. From either the rules are read back that were loaded, with every text and number in
them, so what is printed and what is served are the same (`printed_as_served`).
-/

namespace Rulebook.Command

open Rulebook.Decimal (twoPow)
open Rulebook.Http (Request Target)
open Rulebook.Service (AsksFor)

/-- The rules are printed on one line, if the content can be loaded. -/
theorem write_printRules {machine : Machine} {settings : Settings} {snapshot : Snapshot}
    (info : BuildInfo) (hload : Snapshot.load machine.world settings.content.path = .ok snapshot) :
    (Command.printRules.report machine settings info).write .accepting
      = ⟨Json.compact snapshot.rules.toData ++ "\n", none⟩ := by
  have hreport : Command.printRules.report machine settings info
      = { lines := [Json.compact snapshot.rules.toData] } := by
    rw [report, loadContent, hload]
    rfl
  rw [hreport, Report.write, Help.joinLines]
  simp [String.join]

/-- **Printed rules are read back.** -/
theorem read_printedRules (rules : Rules) :
    Json.read Rules.read (Json.compact rules.toData) = .ok rules :=
  Json.read_compact (Rules.kept 120 rules) (Rules.reads Json.faithful rules)

/-- **What is printed and what is served are the same rules.** When the content can be loaded, its
rules are printed as one document in JSON and a new line, and the rules that were loaded are read
back from the document. They are also what is read back from the answer to a request for the
content, whatever was asked before; only here texts, lists and tables must be no longer than the
format of the answer can say. -/
theorem printed_as_served {machine : Machine} {settings : Settings} {snapshot : Snapshot}
    (info : BuildInfo) (hload : Snapshot.load machine.world settings.content.path = .ok snapshot) :
    ∃ document : String,
      (Command.printRules.report machine settings info).write .accepting = ⟨document ++ "\n", none⟩
        ∧ Json.read Rules.read document = .ok snapshot.rules
        ∧ ∀ (service : Service) (earlier : List Request) (request : Request) (target : Target)
            (who : Option Identity), service.snapshot = snapshot →
            AsksFor service request .content target →
            Service.identify service.settings request = .ok who →
            (∀ length ∈ MessagePack.lengths snapshot.rules.toData, length < twoPow 32) →
              MessagePack.read Rules.read (service.serve (service.served earlier) request).1.body
                = some (snapshot.rules, []) := by
  refine ⟨_, write_printRules info hload, read_printedRules _, ?_⟩
  rintro service earlier request target who rfl hasks hwho hlengths
  have hbody : (service.serve (service.served earlier) request).1.body
      = Service.contentBytes service.snapshot.rules := by
    rw [hasks.serve_of_passed hwho, Service.body_finishResponse, Service.routeResponse,
      Service.Worker.finish_eq (Service.cell_holds_served service earlier)]
  have hread := Service.read_contentBytes service.snapshot.rules hlengths []
  rwa [hbody, ← List.append_nil (Service.contentBytes _)]

/-- A content with one rule, which has a text with a quote, a letter of two bytes and a line
break. -/
def quotedContent : Files.World := .ofPlaces [] [
  (["config.yaml"], .file []),
  (["external", "rule", "plugin.yaml"], .file []),
  (["external", "rule", "generic.md"], .file [34, 195, 169, 10]),
  (["internal"], .directory [])]

/-- The directory of the external rules of that content. -/
def quotedExternal : Directory where
  place := ["external"]
  links := Files.World.maxLinks
  path := Path.join "." "external"
  entries := [("rule", .directory [("plugin.yaml", .file []),
    ("generic.md", .file [34, 195, 169, 10])])]

/-- The directory of that rule. -/
def quotedRule : Directory where
  place := ["rule", "external"]
  links := Files.World.maxLinks
  path := quotedExternal.pathOf "rule"
  entries := [("plugin.yaml", .file []), ("generic.md", .file [34, 195, 169, 10])]

theorem quotedContent_root : quotedContent.root = .directory [("config.yaml", .file []),
    ("external", quotedExternal.node), ("internal", .directory [])] := rfl

theorem quotedRule_node : quotedRule.toPosition.node? quotedContent.root
    = some (.directory quotedRule.entries) := by
  rw [quotedContent_root]
  rfl

/-- The rules of that content. -/
def quotedRules : Rules where
  rules := ⟨[("rule", { texts := { generic := "\"é\n" } })], List.pairwise_singleton ..⟩

theorem load_quotedRule : Rule.load quotedContent.root {} quotedRule
    = .ok { texts := { generic := "\"é\n" } } := by
  have hplugin : quotedRule.text? quotedContent.root pluginFile = some "" := by
    have hempty : Text.decodeLenient [] = "" := Text.decodeLenient_encode ""
    rw [Directory.text?_of_find? quotedRule_node (by decide) (by decide) rfl, hempty]
  have htexts : Texts.ofDirectory quotedContent.root quotedRule = { generic := "\"é\n" } := by
    have htext : Text.decodeLenient [34, 195, 169, 10] = "\"é\n" :=
      Text.decodeLenient_encode "\"é\n"
    have hfind : Files.Node.find? genericFile quotedRule.entries
        = some (.file [34, 195, 169, 10]) := rfl
    have hgeneric : quotedRule.ownText genericFile = "\"é\n" := by
      rw [Directory.ownText, hfind, Option.bind_some, Files.Node.text?, htext, Option.getD_some]
    rw [Texts.ofDirectory_eq quotedRule_node (by decide) (by simp [quotedRule]), hgeneric]
    rfl
  have hkeys : quotedRule.subdirectories = [] := Directory.subdirectories_of_none rfl
  have hempty : Plugin.ofYaml "" = .ok {} := rfl
  rw [Rule.load, hplugin, htexts, hkeys]
  dsimp only
  rw [hempty]
  rfl

theorem load_quotedContent :
    ∃ snapshot, Snapshot.load quotedContent "." = .ok snapshot ∧ snapshot.rules = quotedRules := by
  have hsequence : Snapshot.sequence quotedContent "." = [(.external, quotedRule)] := by
    have hrule : quotedRule.isRule quotedContent.root = true :=
      Directory.isRule_of_find? quotedRule_node (by decide) rfl
    have hexternal : Snapshot.found quotedContent "." .external = [quotedRule] := by
      have hopen := Snapshot.openDirectory_here quotedContent_root rfl .external rfl
      rw [Snapshot.found_eq hopen]
      exact Directory.rules_of_single (Directory.subdirectories_of_single rfl) hrule
    have hinternal : Snapshot.found quotedContent "." .internal = [] := by
      have hopen := Snapshot.openDirectory_here quotedContent_root rfl .internal rfl
      rw [Snapshot.found_eq hopen]
      exact Directory.rules_of_none rfl
    rw [Snapshot.sequence_eq, hexternal, hinternal]
    rfl
  have h := Snapshot.load_here quotedContent_root rfl rfl Snapshot.decode?_nil rfl
    (by decide +kernel) rfl rfl
  refine ⟨_, h, ?_⟩
  rw [hsequence, List.foldl_cons, Snapshot.loadEntry, Snapshot.loadRule, load_quotedRule]
  rfl

/-- The rules of that content are printed as they are served to the second request for them. -/
theorem printed_as_served_quotedContent :
    let settings : Settings := { content := { path := "." } }
    let machine : Machine :=
      { world := quotedContent, environment := [], listen := fun _ => .ok () }
    let request : Request := { target := "/api/v1/content" }
    ∃ snapshot, Snapshot.load quotedContent "." = .ok snapshot
      ∧ ∃ document, (Command.printRules.report machine settings .current).write .accepting
            = ⟨document ++ "\n", none⟩
          ∧ Json.read Rules.read document = .ok snapshot.rules
          ∧ let service : Service := { Service.emptyService.withAuth false with snapshot }
            MessagePack.read Rules.read (service.serve (service.served [request]) request).1.body
              = some (snapshot.rules, []) := by
  intro settings machine request
  obtain ⟨snapshot, hload, hrules⟩ := load_quotedContent
  obtain ⟨document, hwrite, hread, hserved⟩ :=
    @printed_as_served machine settings _ .current hload
  refine ⟨snapshot, hload, document, hwrite, hread, ?_⟩
  have hpath : Target.Leads "/api/v1/content" ["api", "v1", "content"] :=
    Target.leads_plain (by decide) (List.forall_iff_forall_mem.1 (by decide))
  have hsegments : ["api", "v1", "content"]
      = Service.Route.baseSegments (Service.emptyService.withAuth false).settings.server
        ++ Service.Route.content.pattern := by decide
  have hasks : AsksFor { Service.emptyService.withAuth false with snapshot } request .content
      ⟨["api", "v1", "content"], []⟩ := ⟨rfl, rfl, hpath.ofText?, hsegments⟩
  refine hserved _ [request] request _ none rfl hasks (Service.identify_of_open rfl) ?_
  rw [hrules]
  decide

end Rulebook.Command
