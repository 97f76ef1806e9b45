import Rulebook.Base64
import Rulebook.BuildInfo
import Rulebook.Check
import Rulebook.Command.Basic
import Rulebook.Command.Failure
import Rulebook.Command.Help
import Rulebook.Command.Line
import Rulebook.Command.Run
import Rulebook.Decimal.Binary64
import Rulebook.Decimal.Notation
import Rulebook.Decimal.Number
import Rulebook.Decimal.Numeral
import Rulebook.Decimal.Shortest
import Rulebook.Decimal.Width
import Rulebook.Document.Data
import Rulebook.Document.Fault
import Rulebook.Document.Plain
import Rulebook.Document.Source
import Rulebook.Error
import Rulebook.Files.Build
import Rulebook.Files.Path
import Rulebook.Files.Tree
import Rulebook.Group
import Rulebook.Http.Message
import Rulebook.Http.Target
import Rulebook.Identity
import Rulebook.Json.Flaw
import Rulebook.Json.Node
import Rulebook.Json.Print
import Rulebook.Json.Source
import Rulebook.Main
import Rulebook.MessagePack
import Rulebook.Program
import Rulebook.Proofs.Addressing
import Rulebook.Proofs.Base64
import Rulebook.Proofs.Bookkeeping
import Rulebook.Proofs.CheckOutcome
import Rulebook.Proofs.ConditionShapes
import Rulebook.Proofs.Consistency
import Rulebook.Proofs.ContentBytes
import Rulebook.Proofs.Counterpart
import Rulebook.Proofs.CrossOrigin
import Rulebook.Proofs.Discovery
import Rulebook.Proofs.EmptyFields
import Rulebook.Proofs.ExitStatus
import Rulebook.Proofs.Exposition
import Rulebook.Proofs.Findings
import Rulebook.Proofs.Gate
import Rulebook.Proofs.GivenFields
import Rulebook.Proofs.HeaderIdentity
import Rulebook.Proofs.Inheritance
import Rulebook.Proofs.Isolation
import Rulebook.Proofs.JsonRecords
import Rulebook.Proofs.JsonScalars
import Rulebook.Proofs.JsonText
import Rulebook.Proofs.JsonValues
import Rulebook.Proofs.Labels
import Rulebook.Proofs.LayeredSettings
import Rulebook.Proofs.ListingOrder
import Rulebook.Proofs.LoadFailure
import Rulebook.Proofs.MessagePack
import Rulebook.Proofs.Overlap
import Rulebook.Proofs.PrintedRules
import Rulebook.Proofs.PrintedSettings
import Rulebook.Proofs.PublicFile
import Rulebook.Proofs.ReadBack
import Rulebook.Proofs.RecordReading
import Rulebook.Proofs.Reordering
import Rulebook.Proofs.Repetitions
import Rulebook.Proofs.Replacement
import Rulebook.Proofs.RequestCounts
import Rulebook.Proofs.RoutePrefix
import Rulebook.Proofs.RuleLoading
import Rulebook.Proofs.RuleSchema
import Rulebook.Proofs.SameContent
import Rulebook.Proofs.SettingsFile
import Rulebook.Proofs.SettingsLayers
import Rulebook.Proofs.SettingsNames
import Rulebook.Proofs.SettingsPrecedence
import Rulebook.Proofs.SettingsReading
import Rulebook.Proofs.StatusForm
import Rulebook.Proofs.StatusSelection
import Rulebook.Proofs.TargetText
import Rulebook.Proofs.Tree
import Rulebook.Proofs.Unlinked
import Rulebook.Proofs.Utf8
import Rulebook.Rule.Basic
import Rulebook.Rule.Directory
import Rulebook.Rule.Metadata
import Rulebook.Rule.Walk
import Rulebook.Service.Answer
import Rulebook.Service.Cell
import Rulebook.Service.Listen
import Rulebook.Service.Route
import Rulebook.Service.Serve
import Rulebook.Service.Tally
import Rulebook.Settings.Basic
import Rulebook.Settings.Check
import Rulebook.Settings.Endpoint
import Rulebook.Settings.Environment
import Rulebook.Settings.File
import Rulebook.Settings.Level
import Rulebook.Settings.Load
import Rulebook.Settings.Value
import Rulebook.Snapshot
import Rulebook.Status
import Rulebook.StatusFilter
import Rulebook.Table
import Rulebook.Text.Blank
import Rulebook.Text.Literal
import Rulebook.Text.Printable
import Rulebook.Text.Split
import Rulebook.Text.Utf8
import Rulebook.Toml.Document
import Rulebook.Toml.Lexeme
import Rulebook.Yaml.Cursor
import Rulebook.Yaml.Event
import Rulebook.Yaml.Lexeme
import Rulebook.Yaml.Node
import Rulebook.Yaml.Scalar
import Rulebook.Yaml.Source
import Rulebook.Yaml.Token
import Rulebook.Yaml.Value
