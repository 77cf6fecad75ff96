import BenchLog.Binary64.Order
import BenchLog.Binary64.Arithmetic
import BenchLog.Decimal.Layout
import BenchLog.Decimal.Reader
import BenchLog.Text.Blank
import BenchLog.Text.Quoted
import BenchLog.Metric.Extraction
import BenchLog.Log.Error
import BenchLog.Event
import BenchLog.Summary
import BenchLog.Json.Printer
import BenchLog.Json.Reader
import BenchLog.Json.Number
import BenchLog.Report.Format
import BenchLog.Toml.Table
import BenchLog.Toml.Text
import BenchLog.Toml.Reader
import BenchLog.Failure
import BenchLog.Files.Tree
import BenchLog.CommandLine.Tool
import BenchLog.Session
import BenchLog.Main
import BenchLog.Proofs.Log.Lines
import BenchLog.Proofs.Log.Slots
import BenchLog.Proofs.Log.Layout
import BenchLog.Proofs.Log.FirstFault
import BenchLog.Proofs.Log.Truncation
import BenchLog.Proofs.Json.Documents
import BenchLog.Proofs.Binary64.Nearest
import BenchLog.Proofs.Decimal.Shortest
import BenchLog.Proofs.Binary64.Whole
import BenchLog.Proofs.Json.Doubles
import BenchLog.Proofs.Report.RoundTrip
import BenchLog.Proofs.Recipe.Validity
import BenchLog.Proofs.Log.Splitting
import BenchLog.Proofs.Stats.Median
import BenchLog.Proofs.Stats.Trimming
import BenchLog.Proofs.Summary.Complete
import BenchLog.Proofs.Log.BlockOrder
import BenchLog.Proofs.Summary.BlockOrder
import BenchLog.Proofs.CommandLine.AllOrNothing
import BenchLog.Proofs.CommandLine.FixedRecipe
import BenchLog.Proofs.Decimal.Value
import BenchLog.Proofs.Decimal.Fewest
import BenchLog.Proofs.Decimal.RoundTrip
import BenchLog.Proofs.Decimal.Significant
import BenchLog.Proofs.Report.Plain
import BenchLog.Proofs.Log.Writing
import BenchLog.Proofs.Toml.Strings
import BenchLog.Proofs.Toml.Statements
import BenchLog.Proofs.Recipe.RoundTrip
import BenchLog.Proofs.Binary64.Ordering
import BenchLog.Proofs.Summary.Extremes
import BenchLog.Proofs.Summary.Outliers
import BenchLog.Proofs.Binary64.Sums
import BenchLog.Proofs.Stats.Means
import BenchLog.Proofs.Stats.TrimmedMean
import BenchLog.Proofs.Summary.Means
import BenchLog.Proofs.Binary64.Value
import BenchLog.Proofs.Stats.Accuracy
import BenchLog.Proofs.Text.Blank
import BenchLog.Proofs.Decimal.Grammar
import BenchLog.Proofs.Metric.Extraction
import BenchLog.Proofs.Binary64.Interpolation
import BenchLog.Proofs.Stats.Percentiles
import BenchLog.Proofs.Log.Events
import BenchLog.Proofs.Log.CarriageReturns
import BenchLog.Proofs.Report.Layouts
import BenchLog.Proofs.Json.Range
import BenchLog.Proofs.Report.Readable
import BenchLog.Proofs.Binary64.Unsigned
import BenchLog.Proofs.Stats.Deviations
import BenchLog.Proofs.Summary.Numbers
import BenchLog.Proofs.Binary64.ExactSums
import BenchLog.Proofs.Stats.WholeSamples
import BenchLog.Proofs.Stats.EqualSamples
import BenchLog.Proofs.Decimal.Fixed
import BenchLog.Proofs.Report.Figures
import BenchLog.Proofs.Stats.Indices
import BenchLog.Proofs.Recipe.Sources
import BenchLog.Proofs.Report.Columns
import BenchLog.Proofs.CommandLine.Values
import BenchLog.Proofs.CommandLine.Spellings
