import ShellSurvey.Capture
import ShellSurvey.Command.Help
import ShellSurvey.Command.Layout
import ShellSurvey.Command.Options
import ShellSurvey.Command.Run
import ShellSurvey.Command.Table
import ShellSurvey.Decimal.Binary64
import ShellSurvey.Decimal.Shortest
import ShellSurvey.Directive
import ShellSurvey.Facts
import ShellSurvey.Fault
import ShellSurvey.Grammar.Definition
import ShellSurvey.Grammar.Detect
import ShellSurvey.Import
import ShellSurvey.Journal.Basic
import ShellSurvey.Journal.Desk
import ShellSurvey.Journal.Level
import ShellSurvey.Journal.Record
import ShellSurvey.Journal.Template
import ShellSurvey.Location
import ShellSurvey.Main
import ShellSurvey.Param.Basic
import ShellSurvey.Param.Reference
import ShellSurvey.Param.Scan
import ShellSurvey.Path
import ShellSurvey.Proofs.Command.Report
import ShellSurvey.Proofs.Directive.Blocks
import ShellSurvey.Proofs.Directive.Exported
import ShellSurvey.Proofs.Directive.Listing
import ShellSurvey.Proofs.Directive.Progress
import ShellSurvey.Proofs.Directive.Words
import ShellSurvey.Proofs.Facts
import ShellSurvey.Proofs.Grammar.Detect
import ShellSurvey.Proofs.Grammar.Queries
import ShellSurvey.Proofs.Import
import ShellSurvey.Proofs.Journal.Routing
import ShellSurvey.Proofs.Param.Body
import ShellSurvey.Proofs.Param.Brace
import ShellSurvey.Proofs.Param.Compose
import ShellSurvey.Proofs.Param.Index
import ShellSurvey.Proofs.Param.Scan
import ShellSurvey.Proofs.Param.Signature
import ShellSurvey.Proofs.Param.Token
import ShellSurvey.Proofs.Param.Written
import ShellSurvey.Proofs.Path
import ShellSurvey.Proofs.Query.Declared
import ShellSurvey.Proofs.Settings.Layers
import ShellSurvey.Proofs.Settings.Precedence
import ShellSurvey.Proofs.Settings.Recheck
import ShellSurvey.Proofs.Survey.Comments
import ShellSurvey.Proofs.Survey.Documentation
import ShellSurvey.Proofs.Survey.ExportEntries
import ShellSurvey.Proofs.Survey.Exports
import ShellSurvey.Proofs.Survey.Failures
import ShellSurvey.Proofs.Survey.File
import ShellSurvey.Proofs.Survey.Functions
import ShellSurvey.Proofs.Survey.HereDocuments
import ShellSurvey.Proofs.Survey.ImportGroups
import ShellSurvey.Proofs.Survey.Imports
import ShellSurvey.Proofs.Survey.Independence
import ShellSurvey.Proofs.Survey.Labelling
import ShellSurvey.Proofs.Survey.Reading
import ShellSurvey.Proofs.Survey.Session
import ShellSurvey.Proofs.Survey.SourceOrder
import ShellSurvey.Proofs.Survey.Table
import ShellSurvey.Proofs.Survey.Toggles
import ShellSurvey.Proofs.Text.Blank
import ShellSurvey.Proofs.Text.LineEnding
import ShellSurvey.Proofs.Text.Lines
import ShellSurvey.Proofs.Text.Numeral
import ShellSurvey.Proofs.Text.Replacement
import ShellSurvey.Proofs.Text.Split
import ShellSurvey.Proofs.Text.Unquote
import ShellSurvey.Proofs.Text.Utf8
import ShellSurvey.Proofs.Tree.Places
import ShellSurvey.Proofs.Tree.Tally
import ShellSurvey.Proofs.Tree.Ways
import ShellSurvey.Proofs.Value.Documents
import ShellSurvey.Proofs.Value.Json
import ShellSurvey.Proofs.Value.Overlay
import ShellSurvey.Proofs.Value.Proper
import ShellSurvey.Proofs.Volume.Entries
import ShellSurvey.Proofs.Volume.Listings
import ShellSurvey.Query.Category
import ShellSurvey.Query.Matches
import ShellSurvey.Settings.Basic
import ShellSurvey.Settings.Check
import ShellSurvey.Settings.Environment
import ShellSurvey.Settings.Load
import ShellSurvey.Settings.Scalar
import ShellSurvey.Settings.Validate
import ShellSurvey.Survey.Assemble
import ShellSurvey.Survey.Comment
import ShellSurvey.Survey.Event
import ShellSurvey.Survey.Failure
import ShellSurvey.Survey.Reading
import ShellSurvey.Survey.Session
import ShellSurvey.Text.Blank
import ShellSurvey.Text.Case
import ShellSurvey.Text.CellWidth
import ShellSurvey.Text.LineEnding
import ShellSurvey.Text.Numeral
import ShellSurvey.Text.Printable
import ShellSurvey.Text.Quoted
import ShellSurvey.Text.Split
import ShellSurvey.Text.Utf8
import ShellSurvey.Tree.Data
import ShellSurvey.Tree.Node
import ShellSurvey.Tree.Place
import ShellSurvey.Value.Basic
import ShellSurvey.Value.Display
import ShellSurvey.Value.Json.Reader
import ShellSurvey.Value.Json.Writer
import ShellSurvey.Value.Overlay
import ShellSurvey.Value.Yaml.Block
import ShellSurvey.Value.Yaml.Document
import ShellSurvey.Value.Yaml.Flow
import ShellSurvey.Value.Yaml.Plain
import ShellSurvey.Value.Yaml.Quoted
import ShellSurvey.Value.Yaml.Scalar
import ShellSurvey.Volume
