import Rulebook.Command.Run
import Rulebook.Proofs.JsonValues

/-!
# The settings that are printed

The settings can be printed, in indented JSON, and three of them are secrets: of a secret nothing is
printed but whether there is one. So whoever sees what is printed cannot tell two settings from each
other that have their secrets at the same places and are otherwise the same
(`AgreeButSecrets`), and can tell any others.

Nothing else is lost: from what is printed, the new line at the end included, settings are read back
that are those that were printed in every other part (`printConfig_exact`).
-/

namespace Rulebook

open Rulebook.Document

namespace Json

/-! ## White space behind a text -/

/-- A text is read also when white space follows it. -/
theorem readBytes_of_spells_blank {α : Type} {reader : Focus → Reading α} {bytes gap : List UInt8}
    {node : Node} {value : α} (h : Node.Spells bytes node) (hgap : Node.Blank gap)
    (hread : reader ⟨node, maxDepth⟩ = pure value) :
    readBytes reader (bytes ++ gap) = .ok value := by
  have hends : Node.Ends gap := by
    have h : Node.Ends (gap ++ []) := Node.Ends.blank hgap nofun
    rwa [List.append_nil] at h
  have hparse : Node.ofBytes (bytes ++ gap) = (node, some gap) := by
    refine h.parses _ gap ?_ hends
    rw [List.length_append]
    omega
  have hrest : Node.dropSpace gap = [] := by
    have h := Node.dropSpace_blank hgap []
    rwa [List.append_nil] at h
  rw [readBytes, hparse]
  dsimp only
  rw [hread, hrest]
  rfl

/-- **What is written with indentation and a new line is read back.** -/
theorem read_indented_line {α : Type} {reader : Focus → Reading α} {data : Data} {value : α}
    (hkept : Kept maxDepth data) (hreads : Reads Focus.Stands reader data value) :
    Json.read reader (indented data ++ "\n") = .ok value := by
  have hbytes : Text.encode (indented data ++ "\n") = Text.encode (indented data) ++ [10] := by
    rw [Text.encode, String.toList_append, Node.encodeList_append]
    rfl
  rw [Json.read, hbytes]
  exact readBytes_of_spells_blank (spells_encode_indented hkept)
    (List.forall_mem_singleton.2 rfl) (hreads _ ⟨rfl, hkept⟩)

end Json

namespace Settings

/-! ## Settings are read back -/

section ReadBack

variable {σ : Type} [Source σ] {stands : σ → Data → Prop} (hfaithful : Faithful stands)
include hfaithful

/-- A path is read back. -/
theorem reads_path (path : String) : Reads stands readPath (.text path) path :=
  fun _ hcursor => hfaithful.text "path string" hcursor

theorem Server.reads (server : Server) : Reads stands Server.read server.toData server := by
  refine hfaithful.reads_record _ (by simp) ?_
  refine .optional (hfaithful.reads_text server.address) ?_
  refine .optional (hfaithful.reads_text server.apiPrefix) ?_
  refine .optional (reads_path hfaithful server.apiSpecFile) ?_
  refine .optional (hfaithful.reads_flag server.auth) ?_
  refine .optional (hfaithful.reads_text server.authType) ?_
  exact .optional (hfaithful.reads_flag server.enableCors) (.nil _)

theorem Groups.reads (groups : Groups) : Reads stands Groups.read groups.toData groups := by
  refine hfaithful.reads_record _ (by simp) ?_
  exact .optional (reads_path hfaithful groups.configPath) (.nil _)

theorem Content.reads (content : Content) : Reads stands Content.read content.toData content := by
  refine hfaithful.reads_record _ (by simp) ?_
  exact .optional (reads_path hfaithful content.path) (.nil _)

theorem Metrics.reads (metrics : Metrics) : Reads stands Metrics.read metrics.toData metrics := by
  refine hfaithful.reads_record _ (by simp) ?_
  exact .optional (hfaithful.reads_text metrics.space) (.nil _)

theorem CloudWatch.reads (cloud : CloudWatch) :
    Reads stands CloudWatch.read cloud.toData cloud := by
  refine hfaithful.reads_record _ (by simp) ?_
  refine .optional (hfaithful.reads_text cloud.accessId) ?_
  refine .optional (hfaithful.reads_text cloud.secretKey) ?_
  refine .optional (hfaithful.reads_text cloud.sessionToken) ?_
  refine .optional (hfaithful.reads_text cloud.region) ?_
  refine .optional (hfaithful.reads_text cloud.logGroup) ?_
  refine .optional (hfaithful.reads_text cloud.streamName) ?_
  exact .optional (hfaithful.reads_flag cloud.debug) (.nil _)

end ReadBack

/-- **A file that may be missing is read back from JSON**, where null stands for none. -/
theorem reads_fileOutput (path? : Option String) :
    Reads Json.Focus.Stands (readOption readPath)
      (match path? with
        | none => .null
        | some path => .text path) path? := by
  rintro ⟨node, depth⟩ ⟨rfl, -⟩
  cases path? <;> rfl

theorem Logging.reads (logging : Logging) :
    Reads Json.Focus.Stands Logging.read logging.toData logging := by
  refine Json.faithful.reads_record _ (by simp) ?_
  refine .optional (Json.faithful.reads_text logging.level) ?_
  refine .optional (Json.faithful.reads_flag logging.jsonFormat) ?_
  refine .optional (reads_fileOutput logging.fileOutput) ?_
  exact .optional (Json.faithful.reads_flag logging.cloudWatchEnabled) (.nil _)

/-- **Settings are read back from JSON.** -/
theorem reads (settings : Settings) :
    Reads Json.Focus.Stands Settings.read settings.toData settings := by
  refine Json.faithful.reads_record _ (by simp) ?_
  refine .optional (Server.reads Json.faithful settings.server) ?_
  refine .optional (Groups.reads Json.faithful settings.groups) ?_
  refine .optional (Content.reads Json.faithful settings.content) ?_
  refine .optional (Metrics.reads Json.faithful settings.metrics) ?_
  refine .optional (Logging.reads settings.logging) ?_
  exact .optional (CloudWatch.reads Json.faithful settings.cloudWatch) (.nil _)

/-- **Settings are kept by JSON**, in two levels. -/
theorem kept (depth : Nat) (settings : Settings) : Json.Kept (depth + 2) settings.toData := by
  have hserver : Json.Kept (depth + 1) settings.server.toData :=
    .table (by simp [Json.Kept.text, Json.Kept.flag])
  have hgroups : Json.Kept (depth + 1) settings.groups.toData := .table (by simp [Json.Kept.text])
  have hcontent : Json.Kept (depth + 1) settings.content.toData := .table (by simp [Json.Kept.text])
  have hmetrics : Json.Kept (depth + 1) settings.metrics.toData := .table (by simp [Json.Kept.text])
  have hlogging : Json.Kept (depth + 1) settings.logging.toData := by
    obtain ⟨level, jsonFormat, fileOutput, cloudWatchEnabled⟩ := settings.logging
    cases fileOutput <;>
      exact .table (by simp [Json.Kept.null, Json.Kept.text, Json.Kept.flag])
  have hcloud : Json.Kept (depth + 1) settings.cloudWatch.toData :=
    .table (by simp [Json.Kept.text, Json.Kept.flag])
  exact .table (by simp [hserver, hgroups, hcontent, hmetrics, hlogging, hcloud])

/-! ## What is shown of settings -/

/-- **What is shown of a secret**: nothing if there is none, and else always the same. -/
inductive ShownSecret : String → String → Prop where
  /-- There is none. -/
  | none : ShownSecret "" ""
  /-- There is one. -/
  | some {secret : String} (h : secret ≠ "") : ShownSecret secret "********"

/-- **What is shown of settings**: everything but the three secrets. -/
structure ShownAs (settings shown : Settings) : Prop where
  /-- How the server is reached is shown. -/
  server : shown.server = settings.server
  /-- So is where the groups are. -/
  groups : shown.groups = settings.groups
  /-- So is where the rules are. -/
  content : shown.content = settings.content
  /-- So is how the counters are called. -/
  metrics : shown.metrics = settings.metrics
  /-- So is what is logged. -/
  logging : shown.logging = settings.logging
  /-- So is the region in the cloud. -/
  region : shown.cloudWatch.region = settings.cloudWatch.region
  /-- So is the group of logs. -/
  logGroup : shown.cloudWatch.logGroup = settings.cloudWatch.logGroup
  /-- So is the stream. -/
  streamName : shown.cloudWatch.streamName = settings.cloudWatch.streamName
  /-- So is whether the access is logged. -/
  debug : shown.cloudWatch.debug = settings.cloudWatch.debug
  /-- The name of the key is a secret. -/
  accessId : ShownSecret settings.cloudWatch.accessId shown.cloudWatch.accessId
  /-- So is the key. -/
  secretKey : ShownSecret settings.cloudWatch.secretKey shown.cloudWatch.secretKey
  /-- So is the token of a session. -/
  sessionToken : ShownSecret settings.cloudWatch.sessionToken shown.cloudWatch.sessionToken

/-- **Settings that agree but for their secrets**, and have these at the same places. -/
structure AgreeButSecrets (settings other : Settings) : Prop where
  /-- The server is reached in the same way. -/
  server : settings.server = other.server
  /-- The groups are at the same place. -/
  groups : settings.groups = other.groups
  /-- So are the rules. -/
  content : settings.content = other.content
  /-- The counters are called the same. -/
  metrics : settings.metrics = other.metrics
  /-- The same is logged. -/
  logging : settings.logging = other.logging
  /-- The region in the cloud is the same. -/
  region : settings.cloudWatch.region = other.cloudWatch.region
  /-- So is the group of logs. -/
  logGroup : settings.cloudWatch.logGroup = other.cloudWatch.logGroup
  /-- So is the stream. -/
  streamName : settings.cloudWatch.streamName = other.cloudWatch.streamName
  /-- So is whether the access is logged. -/
  debug : settings.cloudWatch.debug = other.cloudWatch.debug
  /-- Both have the name of a key or neither has one. -/
  accessId : settings.cloudWatch.accessId = "" ↔ other.cloudWatch.accessId = ""
  /-- Both have a key or neither has one. -/
  secretKey : settings.cloudWatch.secretKey = "" ↔ other.cloudWatch.secretKey = ""
  /-- Both have the token of a session or neither has one. -/
  sessionToken : settings.cloudWatch.sessionToken = "" ↔ other.cloudWatch.sessionToken = ""

theorem shownSecret_mask (secret : String) : ShownSecret secret (mask secret) := by
  unfold mask
  by_cases h : secret = ""
  · subst h
    exact .none
  · rw [if_neg (by simpa using h)]
    exact .some h

/-- Two secrets are masked alike when both are there or neither is. -/
theorem mask_eq_iff {secret other : String} :
    mask secret = mask other ↔ (secret = "" ↔ other = "") := by
  unfold mask
  by_cases hsecret : secret = "" <;> by_cases hother : other = "" <;> simp [hsecret, hother]

theorem shownAs_masked (settings : Settings) : ShownAs settings settings.masked where
  server := rfl
  groups := rfl
  content := rfl
  metrics := rfl
  logging := rfl
  region := rfl
  logGroup := rfl
  streamName := rfl
  debug := rfl
  accessId := shownSecret_mask _
  secretKey := shownSecret_mask _
  sessionToken := shownSecret_mask _

/-- **Settings are the same without their secrets** exactly when they agree but for these. -/
theorem masked_eq_iff {settings other : Settings} :
    settings.masked = other.masked ↔ AgreeButSecrets settings other := by
  simp only [masked, Settings.mk.injEq, CloudWatch.mk.injEq, mask_eq_iff]
  constructor
  · rintro ⟨server, groups, content, metrics, logging, accessId, secretKey, sessionToken, region,
      logGroup, streamName, debug⟩
    exact ⟨server, groups, content, metrics, logging, region, logGroup, streamName, debug, accessId,
      secretKey, sessionToken⟩
  · intro h
    exact ⟨h.server, h.groups, h.content, h.metrics, h.logging, h.accessId, h.secretKey,
      h.sessionToken, h.region, h.logGroup, h.streamName, h.debug⟩

end Settings

namespace Command

/-- The settings are printed on lines of their own. -/
theorem write_printConfig (machine : Machine) (settings : Settings) (info : BuildInfo) :
    (Command.printConfig.report machine settings info).write .accepting
      = ⟨Json.indented settings.masked.toData ++ "\n", none⟩ := by
  have hreport : Command.printConfig.report machine settings info
      = { lines := [Json.indented settings.masked.toData] } := rfl
  rw [hreport, Report.write, Help.joinLines]
  simp [String.join]

/-- **Printed settings are read back**, but for the secrets. -/
theorem read_printedSettings (settings : Settings) :
    Json.read Settings.read (Json.indented settings.masked.toData ++ "\n") = .ok settings.masked :=
  Json.read_indented_line (Settings.kept 125 settings.masked) (Settings.reads settings.masked)

/-- **What is printed of settings reveals no secret and nothing else is lost.** The same is written
for two settings exactly when they agree but for their secrets, whether or not the lines are taken.
And what is written can be read, and then are settings in which every setting is the one that was
printed, but for the secrets: a secret that is there is shown as eight asterisks. -/
theorem printConfig_exact (machine : Machine) (info : BuildInfo) :
    (∀ settings other, Settings.AgreeButSecrets settings other
      ↔ ∀ sink, (Command.printConfig.report machine settings info).write sink
        = (Command.printConfig.report machine other info).write sink)
      ∧ ∀ settings, ∃ output shown,
        (Command.printConfig.report machine settings info).write .accepting = ⟨output, none⟩
          ∧ Json.read Settings.read output = .ok shown ∧ Settings.ShownAs settings shown := by
  refine ⟨fun settings other => ⟨fun h sink => ?_, fun h => ?_⟩, fun settings => ?_⟩
  · have hmasked := Settings.masked_eq_iff.2 h
    rw [report, report, configLines, configLines, hmasked]
  · -- equal outputs are read as equal settings
    have houtput := congrArg Outcome.output (h .accepting)
    rw [write_printConfig, write_printConfig] at houtput
    have hread := read_printedSettings settings
    rw [show Json.indented settings.masked.toData ++ "\n"
      = Json.indented other.masked.toData ++ "\n" from houtput, read_printedSettings] at hread
    exact Settings.masked_eq_iff.1 (Except.ok.inj hread).symm
  · exact ⟨_, _, write_printConfig machine settings info, read_printedSettings settings,
      Settings.shownAs_masked settings⟩

end Command

end Rulebook
