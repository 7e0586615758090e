import MetricCatalog.CommandLine.Run
import MetricCatalog.Main
import MetricCatalog.Source.Script
import MetricCatalog.Verbosity
import MetricCatalog.Proofs.History
import MetricCatalog.Proofs.KeyMap
import MetricCatalog.Proofs.Schedule.Loop
import MetricCatalog.Proofs.Schedule.Safety
import MetricCatalog.Proofs.Schedule.Outcome
import MetricCatalog.Proofs.Schedule.Jobs
import MetricCatalog.Proofs.Schedule.Report
import MetricCatalog.Proofs.Sql.Cuts
import MetricCatalog.Proofs.Number.Numeral
import MetricCatalog.Proofs.Sql.Scan
import MetricCatalog.Proofs.Sql.Division
import MetricCatalog.Proofs.Sql.Chaining
import MetricCatalog.Proofs.Query.Statement
import MetricCatalog.Proofs.Query.Faithful
import MetricCatalog.Proofs.Query.Processing
import MetricCatalog.Proofs.Query.Lasting
import MetricCatalog.Proofs.Query.Storing
import MetricCatalog.Proofs.Catalog.Change
import MetricCatalog.Proofs.Catalog.Serial
import MetricCatalog.Proofs.Catalog.Writing
import MetricCatalog.Proofs.Catalog.Shared
import MetricCatalog.Proofs.Catalog.Kept
import MetricCatalog.Proofs.Catalog.Entries
import MetricCatalog.Proofs.Catalog.Replay
import MetricCatalog.Proofs.Catalog.Independence
import MetricCatalog.Proofs.Catalog.Sharing
import MetricCatalog.Proofs.Files.Above
import MetricCatalog.Proofs.Files.Missing
import MetricCatalog.Proofs.Catalog.Interruption
import MetricCatalog.Proofs.Compile.Progress
import MetricCatalog.Proofs.Compile.Upkeep
import MetricCatalog.Proofs.Compile.Tracking
import MetricCatalog.Proofs.Compile.Edits
import MetricCatalog.Proofs.Compile.Probing
import MetricCatalog.Proofs.Compile.Replacing
import MetricCatalog.Proofs.Compile.Standing
import MetricCatalog.Proofs.Compile.Interleaving
import MetricCatalog.Proofs.Compile.Agreement
import MetricCatalog.Proofs.Compile.OneByOne
import MetricCatalog.Proofs.Compile.Timing
import MetricCatalog.Proofs.Compile.Rounds
import MetricCatalog.Proofs.Compile.Undisturbed
import MetricCatalog.Proofs.Compile.Revision
import MetricCatalog.Proofs.Compile.Repetition
import MetricCatalog.Proofs.Text.Digits
import MetricCatalog.Proofs.Json.Number
import MetricCatalog.Proofs.Json.Spelling
import MetricCatalog.Proofs.Json.Printing
import MetricCatalog.Proofs.Json.Record
import MetricCatalog.Proofs.Time.Calendar
import MetricCatalog.Proofs.Time.Timestamp
import MetricCatalog.Proofs.Uuid
import MetricCatalog.Proofs.Catalog.Codec
import MetricCatalog.Proofs.Query.Results
import MetricCatalog.Proofs.Text.Pattern
import MetricCatalog.Proofs.Query.Form
import MetricCatalog.Proofs.Files.WellNamed
import MetricCatalog.Proofs.Definition.Discovery
import MetricCatalog.Proofs.Definition.Naming
import MetricCatalog.Proofs.Compile.Dependencies
import MetricCatalog.Proofs.Compile.Harmony
import MetricCatalog.Proofs.Compile.Outcomes
import MetricCatalog.Proofs.Query.Escaping
import MetricCatalog.Proofs.Query.Integers
import MetricCatalog.Proofs.Compile.Columns
import MetricCatalog.Proofs.Source.EmbeddedPath
import MetricCatalog.Proofs.Source.Batching
