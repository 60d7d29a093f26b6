import CodeQuality.ApiError
import CodeQuality.Branch
import CodeQuality.Client
import CodeQuality.CommandLine.Help
import CodeQuality.CommandLine.Invocation
import CodeQuality.CommandLine.Level
import CodeQuality.CommandLine.Syntax
import CodeQuality.Decimal.Binary64
import CodeQuality.Decimal.Shortest
import CodeQuality.FileTree
import CodeQuality.Http.Charset
import CodeQuality.Http.MediaType
import CodeQuality.Http.Message
import CodeQuality.Http.Status
import CodeQuality.Journal
import CodeQuality.Json.Cause
import CodeQuality.Json.Container
import CodeQuality.Json.Cursor
import CodeQuality.Json.Document
import CodeQuality.Json.NumberText
import CodeQuality.Json.Printer
import CodeQuality.Json.Quoted
import CodeQuality.Json.Schema
import CodeQuality.Json.Schema.Reader
import CodeQuality.Json.Schema.Writer
import CodeQuality.Json.Skipped
import CodeQuality.Json.Value
import CodeQuality.Main
import CodeQuality.Measure
import CodeQuality.Operations
import CodeQuality.Program
import CodeQuality.Proofs.Agreement
import CodeQuality.Proofs.BranchLike
import CodeQuality.Proofs.Call
import CodeQuality.Proofs.Cells
import CodeQuality.Proofs.Client
import CodeQuality.Proofs.CommandLine.Help
import CodeQuality.Proofs.CommandLine.Level
import CodeQuality.Proofs.CommandLine.Line
import CodeQuality.Proofs.CommandLine.Pairs
import CodeQuality.Proofs.CommandLine.Reading
import CodeQuality.Proofs.CommandLine.Spelled
import CodeQuality.Proofs.CommandLine.Task
import CodeQuality.Proofs.Decoded
import CodeQuality.Proofs.Direct
import CodeQuality.Proofs.Directories
import CodeQuality.Proofs.Entity
import CodeQuality.Proofs.Envelope
import CodeQuality.Proofs.FileTree
import CodeQuality.Proofs.Journal
import CodeQuality.Proofs.Json.Accepts
import CodeQuality.Proofs.Json.Canonical
import CodeQuality.Proofs.Json.Container
import CodeQuality.Proofs.Json.Cut
import CodeQuality.Proofs.Json.Dates
import CodeQuality.Proofs.Json.Direct
import CodeQuality.Proofs.Json.Document
import CodeQuality.Proofs.Json.Faithful
import CodeQuality.Proofs.Json.Grammar
import CodeQuality.Proofs.Json.Layout
import CodeQuality.Proofs.Json.Leaves
import CodeQuality.Proofs.Json.Local
import CodeQuality.Proofs.Json.Members
import CodeQuality.Proofs.Json.NumberText
import CodeQuality.Proofs.Json.Objects
import CodeQuality.Proofs.Json.Ordered
import CodeQuality.Proofs.Json.Parts
import CodeQuality.Proofs.Json.Passing
import CodeQuality.Proofs.Json.Quoted
import CodeQuality.Proofs.Json.Reading
import CodeQuality.Proofs.Json.Record
import CodeQuality.Proofs.Json.RecordText
import CodeQuality.Proofs.Json.Regular
import CodeQuality.Proofs.Json.Reordered
import CodeQuality.Proofs.Json.Reread
import CodeQuality.Proofs.Json.RoundTrip
import CodeQuality.Proofs.Json.Scanned
import CodeQuality.Proofs.Json.Schemas
import CodeQuality.Proofs.Json.Shown
import CodeQuality.Proofs.Json.Sole
import CodeQuality.Proofs.Json.Texts
import CodeQuality.Proofs.Json.Tokens
import CodeQuality.Proofs.Json.WellFormed
import CodeQuality.Proofs.Json.Written
import CodeQuality.Proofs.Listing
import CodeQuality.Proofs.MemberOrder
import CodeQuality.Proofs.Normal
import CodeQuality.Proofs.Operations
import CodeQuality.Proofs.Refusal
import CodeQuality.Proofs.Report.Painted
import CodeQuality.Proofs.Reporting
import CodeQuality.Proofs.Response
import CodeQuality.Proofs.Run.Answers
import CodeQuality.Proofs.Run.Command
import CodeQuality.Proofs.Run.Deletion
import CodeQuality.Proofs.Run.Echo
import CodeQuality.Proofs.Run.ExitCode
import CodeQuality.Proofs.Run.Given
import CodeQuality.Proofs.Run.Invocation
import CodeQuality.Proofs.Run.Outcome
import CodeQuality.Proofs.Run.Painted
import CodeQuality.Proofs.Run.Parameters
import CodeQuality.Proofs.Run.Ran
import CodeQuality.Proofs.Run.Request
import CodeQuality.Proofs.Run.Server
import CodeQuality.Proofs.Run.Settings
import CodeQuality.Proofs.Run.Turns
import CodeQuality.Proofs.Run.Unchanged
import CodeQuality.Proofs.Saving
import CodeQuality.Proofs.Scoping
import CodeQuality.Proofs.Settings
import CodeQuality.Proofs.Steps
import CodeQuality.Proofs.Table.Painted
import CodeQuality.Proofs.Table.Related
import CodeQuality.Proofs.Text.ByteOrder
import CodeQuality.Proofs.Text.Composed
import CodeQuality.Proofs.Text.Numeral
import CodeQuality.Proofs.Text.Octets
import CodeQuality.Proofs.Text.Painted
import CodeQuality.Proofs.Text.Spans
import CodeQuality.Proofs.Time.Age
import CodeQuality.Proofs.Time.Calendar
import CodeQuality.Proofs.Time.Forms
import CodeQuality.Proofs.Time.Reread
import CodeQuality.Proofs.Time.Timestamp
import CodeQuality.Proofs.Toml.Document
import CodeQuality.Proofs.Toml.Quoted
import CodeQuality.Proofs.Toml.Scan
import CodeQuality.Proofs.Url.Address
import CodeQuality.Proofs.Url.Barred
import CodeQuality.Proofs.Url.Below
import CodeQuality.Proofs.Url.Form
import CodeQuality.Proofs.Url.Host
import CodeQuality.Proofs.Url.Misspelled
import CodeQuality.Proofs.Url.Percent
import CodeQuality.Proofs.Url.Place
import CodeQuality.Proofs.Url.Reader
import CodeQuality.Proofs.Url.Regular
import CodeQuality.Proofs.Url.Scheme
import CodeQuality.Proofs.Url.Server
import CodeQuality.Proofs.Url.Spelling
import CodeQuality.Proofs.Wordless
import CodeQuality.Report.BranchListing
import CodeQuality.Report.Highlight
import CodeQuality.Report.MeasureListing
import CodeQuality.Run
import CodeQuality.Run.Basic
import CodeQuality.Run.Server
import CodeQuality.Run.Settings
import CodeQuality.Settings
import CodeQuality.Table
import CodeQuality.Text.Base64
import CodeQuality.Text.Blank
import CodeQuality.Text.ColumnTable
import CodeQuality.Text.Columns
import CodeQuality.Text.Composed
import CodeQuality.Text.ComposedTable
import CodeQuality.Text.Numeral
import CodeQuality.Text.Octets
import CodeQuality.Text.Parts
import CodeQuality.Text.Quoted
import CodeQuality.Text.QuotedTable
import CodeQuality.Text.Ranges
import CodeQuality.Text.Style
import CodeQuality.Text.Truncate
import CodeQuality.Time.Age
import CodeQuality.Time.Calendar
import CodeQuality.Time.Instant
import CodeQuality.Time.Timestamp
import CodeQuality.Toml.Quoted
import CodeQuality.Toml.Reader
import CodeQuality.Toml.Table
import CodeQuality.Toml.Value
import CodeQuality.Url.Address
import CodeQuality.Url.Basic
import CodeQuality.Url.Domain
import CodeQuality.Url.DomainTable
import CodeQuality.Url.Form
import CodeQuality.Url.Percent
import CodeQuality.Url.Punycode
import CodeQuality.Url.Reader
