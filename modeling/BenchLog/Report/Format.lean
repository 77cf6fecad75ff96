import BenchLog.Report.Document
import BenchLog.Report.Plain
import BenchLog.Report.Table

/-!
# Report formats

A `Format` names one of the ways to write a summary, and `Summary.report` writes it.
-/

namespace BenchLog

/-- A way to write a summary. -/
inductive Format where
  | plain
  | console
  | json
  | jsonPretty
  deriving DecidableEq, Repr, Inhabited

namespace Format

def word : Format → String
  | plain => "plain"
  | console => "console"
  | json => "json"
  | jsonPretty => "json-pretty"

def ofWord? (word : String) : Option Format :=
  if word = "plain" then some plain
  else if word = "console" then some console
  else if word = "json" then some json
  else if word = "json-pretty" then some jsonPretty
  else none

theorem ofWord?_word (format : Format) : ofWord? format.word = some format := by
  cases format <;> decide

end Format

def Summary.report (format : Format) (summary : Summary) : List Char :=
  match format with
  | .plain => summary.plain
  | .console => summary.table
  | .json => summary.json .compact
  | .jsonPretty => summary.json .indented

end BenchLog
