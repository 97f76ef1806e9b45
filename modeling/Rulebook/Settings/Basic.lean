import Rulebook.Document.Source
import Rulebook.Files.Path
import Rulebook.Text.Blank

/-!
# Settings

What an operator may choose is laid out in six sections: the server, the two places the content is
read from, the metrics, the log, and the access to a log store in the cloud. Every setting has a
default, so a document that gives none of them is a complete one.

Settings are read from any source of documents and written as plain data, section by section in
this order. Three settings of the last section are secrets; `Settings.masked` is what may be shown.
-/

namespace Rulebook

open Rulebook.Document

namespace Settings

/-- **How the server is reached.** -/
structure Server where
  /-- Where it listens: a host and a port, or a colon and a port for every host. -/
  address : String := "0.0.0.0:8080"
  /-- What the path of every route starts with. -/
  apiPrefix : String := "/api/v1/"
  /-- The file that describes the routes, served under its own name. -/
  apiSpecFile : String := "openapi.json"
  /-- Whether a request must carry an identity. -/
  auth : Bool := false
  /-- The scheme of the identities. -/
  authType : String := "xrh"
  /-- Whether pages of other origins may use the server. -/
  enableCors : Bool := false
deriving DecidableEq, Repr, Inhabited

/-- **Where the groups are.** -/
structure Groups where
  /-- The YAML file of the groups. -/
  configPath : String := "groups_config.yaml"
deriving DecidableEq, Repr, Inhabited

/-- **Where the rules are.** -/
structure Content where
  /-- The directory that holds the two categories and the table of codes. -/
  path : String := "/rules-content"
deriving DecidableEq, Repr, Inhabited

/-- **How the counters are called.** -/
structure Metrics where
  /-- What the name of every counter starts with. -/
  space : String := "content_service"
deriving DecidableEq, Repr, Inhabited

/-- **What is logged, and where.** -/
structure Logging where
  /-- The least severe level that is logged. -/
  level : String := "info"
  /-- Whether a line of the log is a JSON object. -/
  jsonFormat : Bool := false
  /-- A file that the log is written to as well. -/
  fileOutput : Option String := none
  /-- Whether the log is wanted in the cloud. -/
  cloudWatchEnabled : Bool := false
deriving DecidableEq, Repr, Inhabited

/-- **Access to a log store in the cloud.** -/
structure CloudWatch where
  /-- A secret: the name of the key. -/
  accessId : String := ""
  /-- A secret: the key. -/
  secretKey : String := ""
  /-- A secret: the token of a session. -/
  sessionToken : String := ""
  /-- The region of the store. -/
  region : String := ""
  /-- The group of logs. -/
  logGroup : String := ""
  /-- The stream in the group. -/
  streamName : String := ""
  /-- Whether the access itself is logged. -/
  debug : Bool := false
deriving DecidableEq, Repr, Inhabited

end Settings

/-- **All settings.** -/
structure Settings where
  /-- How the server is reached. -/
  server : Settings.Server := {}
  /-- Where the groups are. -/
  groups : Settings.Groups := {}
  /-- Where the rules are. -/
  content : Settings.Content := {}
  /-- How the counters are called. -/
  metrics : Settings.Metrics := {}
  /-- What is logged. -/
  logging : Settings.Logging := {}
  /-- Access to the cloud. -/
  cloudWatch : Settings.CloudWatch := {}
deriving DecidableEq, Repr, Inhabited

namespace Settings

/-! ## Written as plain data -/

/-- The section as plain data. -/
def Server.toData (server : Server) : Data :=
  .table [("address", .text server.address), ("api_prefix", .text server.apiPrefix),
    ("api_spec_file", .text server.apiSpecFile), ("auth", .flag server.auth),
    ("auth_type", .text server.authType), ("enable_cors", .flag server.enableCors)]

/-- The section as plain data. -/
def Groups.toData (groups : Groups) : Data := .table [("config_path", .text groups.configPath)]

/-- The section as plain data. -/
def Content.toData (content : Content) : Data := .table [("path", .text content.path)]

/-- The section as plain data. -/
def Metrics.toData (metrics : Metrics) : Data := .table [("namespace", .text metrics.space)]

/-- The section as plain data. -/
def Logging.toData (logging : Logging) : Data :=
  .table [("level", .text logging.level), ("json_format", .flag logging.jsonFormat),
    ("file_output", match logging.fileOutput with
      | none => .null
      | some path => .text path),
    ("logging_to_cloud_watch_enabled", .flag logging.cloudWatchEnabled)]

/-- The section as plain data. -/
def CloudWatch.toData (cloud : CloudWatch) : Data :=
  .table [("aws_access_id", .text cloud.accessId), ("aws_secret_key", .text cloud.secretKey),
    ("aws_session_token", .text cloud.sessionToken), ("aws_region", .text cloud.region),
    ("log_group", .text cloud.logGroup), ("stream_name", .text cloud.streamName),
    ("debug", .flag cloud.debug)]

/-- **The settings as plain data.** -/
def toData (settings : Settings) : Data :=
  .table [("server", settings.server.toData), ("groups", settings.groups.toData),
    ("content", settings.content.toData), ("metrics", settings.metrics.toData),
    ("logging", settings.logging.toData), ("cloudwatch", settings.cloudWatch.toData)]

/-! ## Read from a document -/

section Reading

variable {σ : Type} [Source σ]

/-- A path. -/
def readPath (value : σ) : Reading String := Source.text "path string" value

/-- **Reads the section on the server.** -/
def Server.read (value : σ) : Reading Server :=
  readRecord "struct ServerConfig" {} [
    .optional "address" readText fun address server => { server with address },
    .optional "api_prefix" readText fun apiPrefix server => { server with apiPrefix },
    .optional "api_spec_file" readPath fun apiSpecFile server => { server with apiSpecFile },
    .optional "auth" Source.flag fun auth server => { server with auth },
    .optional "auth_type" readText fun authType server => { server with authType },
    .optional "enable_cors" Source.flag fun enableCors server => { server with enableCors }] value

/-- **Reads the section on the groups.** -/
def Groups.read (value : σ) : Reading Groups :=
  readRecord "struct GroupsConfig" {} [
    .optional "config_path" readPath fun configPath groups => { groups with configPath }] value

/-- **Reads the section on the rules.** -/
def Content.read (value : σ) : Reading Content :=
  readRecord "struct ContentConfig" {} [
    .optional "path" readPath fun path content => { content with path }] value

/-- **Reads the section on the metrics.** -/
def Metrics.read (value : σ) : Reading Metrics :=
  readRecord "struct MetricsConfig" {} [
    .optional "namespace" readText fun space metrics => { metrics with space }] value

/-- **Reads the section on the log.** -/
def Logging.read (value : σ) : Reading Logging :=
  readRecord "struct LoggingConfig" {} [
    .optional "level" readText fun level logging => { logging with level },
    .optional "json_format" Source.flag fun jsonFormat logging => { logging with jsonFormat },
    .optional "file_output" (readOption readPath)
      fun fileOutput logging => { logging with fileOutput },
    .optional "logging_to_cloud_watch_enabled" Source.flag
      fun cloudWatchEnabled logging => { logging with cloudWatchEnabled }] value

/-- **Reads the section on the cloud.** -/
def CloudWatch.read (value : σ) : Reading CloudWatch :=
  readRecord "struct CloudWatchConfig" {} [
    .optional "aws_access_id" readText fun accessId cloud => { cloud with accessId },
    .optional "aws_secret_key" readText fun secretKey cloud => { cloud with secretKey },
    .optional "aws_session_token" readText fun sessionToken cloud => { cloud with sessionToken },
    .optional "aws_region" readText fun region cloud => { cloud with region },
    .optional "log_group" readText fun logGroup cloud => { cloud with logGroup },
    .optional "stream_name" readText fun streamName cloud => { cloud with streamName },
    .optional "debug" Source.flag fun debug cloud => { cloud with debug }] value

/-- **Reads settings.** A setting that is not given has its default. -/
def read (value : σ) : Reading Settings :=
  readRecord "struct AppConfig" {} [
    .optional "server" Server.read fun server settings => { settings with server },
    .optional "groups" Groups.read fun groups settings => { settings with groups },
    .optional "content" Content.read fun content settings => { settings with content },
    .optional "metrics" Metrics.read fun metrics settings => { settings with metrics },
    .optional "logging" Logging.read fun logging settings => { settings with logging },
    .optional "cloudwatch" CloudWatch.read
      fun cloudWatch settings => { settings with cloudWatch }] value

end Reading

/-! ## What follows from single settings -/

/-- What is shown of a secret: whether there is one. -/
def mask (secret : String) : String := if secret.isEmpty then "" else "********"

/-- **The settings without their secrets.** -/
def masked (settings : Settings) : Settings :=
  { settings with cloudWatch :=
    { settings.cloudWatch with
      accessId := mask settings.cloudWatch.accessId
      secretKey := mask settings.cloudWatch.secretKey
      sessionToken := mask settings.cloudWatch.sessionToken } }

/-- **The normal form of a path prefix**: a slash, and what is left of the prefix without blank
characters at its ends and then without slashes there. -/
def normalPrefix (written : String) : String :=
  "/" ++ Text.trimWith (· == '/') (Text.trim written)

/-- What the path of every route starts with, in normal form. -/
def Server.routePrefix (server : Server) : String := normalPrefix server.apiPrefix

/-- The name under which the description of the routes is served, if its path has a name. -/
def Server.apiSpecName? (server : Server) : Option String := Path.fileName? server.apiSpecFile

/-- **The full name of a counter.** -/
def Metrics.fullName (metrics : Metrics) (name : String) : String :=
  if metrics.space.isEmpty then name else metrics.space ++ "_" ++ name

end Settings

end Rulebook
