import BenchLog.Decimal.Layout

/-!
# Events

What the library tells while it works, as data. `Event.message` is the text, `Event.level` how
much it matters, and an event may carry a block, a metric and a value as well.
-/

namespace BenchLog

inductive Event.Level where
  | debug
  | info
  | warn
  deriving DecidableEq, Repr

/-- Something that happened on the way to a report. -/
inductive Event where
  | builtinRecipe (name : String)
  | recipeLoaded (name : String) (metrics : Nat)
  | summarizing (input recipe : String)
  | readingLog (path : String)
  | sampleRead (block : Nat) (metric : String) (value : Binary64)
  /-- The log ended although blocks are still to come. -/
  | separatorMissing (block : Nat)
  | blockRead (done total : Nat)
  | metricSummarized (name : String) (mean droppedMin droppedMax : Binary64)
  | reportWritten (path : String)
  deriving DecidableEq

namespace Event

def level : Event → Level
  | builtinRecipe .. | readingLog .. | sampleRead .. | blockRead .. => .debug
  | separatorMissing .. => .warn
  | recipeLoaded .. | summarizing .. | metricSummarized .. | reportWritten .. => .info

private def number (x : Binary64) : String := String.ofList x.positional

def message : Event → String
  | builtinRecipe name => s!"Using built-in recipe '{name}'"
  | recipeLoaded name metrics => s!"Loaded recipe '{name}' ({metrics} metrics)"
  | summarizing input recipe => s!"Summarizing {input} with recipe '{recipe}'"
  | readingLog path => s!"Reading benchmark log {path}"
  | sampleRead .. => "extracted sample"
  | separatorMissing _ => "log ended where a separator line was expected"
  | blockRead done total => s!"Parsed block {done} of {total}"
  | metricSummarized name mean droppedMin droppedMax =>
    s!"{name}: trimmed mean {number mean} "
      ++ s!"(dropped min {number droppedMin}, max {number droppedMax})"
  | reportWritten path => s!"Report written to {path}"

def block? : Event → Option Nat
  | sampleRead block .. | separatorMissing block => some block
  | _ => none

def metric? : Event → Option String
  | sampleRead _ metric _ => some metric
  | _ => none

def value? : Event → Option Binary64
  | sampleRead _ _ value => some value
  | _ => none

end Event

end BenchLog
