import BenchLog.Files.Error
import BenchLog.Recipe.Basic
import BenchLog.Text.Quoted

/-!
# Why a log has no summary

Every failure is final: a log either gives a summary of every metric or the first failure met. One
of them is not told like the others: where the samples of all blocks cannot be held the program gives
up at once.
-/

namespace BenchLog

/-- Why a log could not be summarized. Blocks are counted from 0. -/
inductive LogError where
  | unopened (path : String) (cause : FileError)
  | unreadable (cause : FileError)
  /-- A line of a named file could not be read. -/
  | unreadableFile (path : String) (cause : FileError)
  /-- The log ended where a line of the metric was expected. -/
  | ended (block : Nat) (metric : String)
  /-- The line of the metric does not hold a number of its kind; `text` is what it holds. -/
  | notNumber (block : Nat) (metric : String) (kind : NumericKind) (text : List Char)
  | tooFewSamples (metric : String) (count : Nat)
  | unusableRecipe (fault : Recipe.Fault)
  /-- No vector is as long as the recipe has blocks. -/
  | capacityOverflow
  deriving DecidableEq, Repr

namespace LogError

def message : LogError → String
  | unopened path cause => s!"failed to open {path}: {cause.message}"
  | unreadable cause => s!"failed to read log: {cause.message}"
  | unreadableFile path cause => s!"failed to read {path}: {cause.message}"
  | ended block metric => s!"block {block}: expected a line for metric `{metric}` but the log ended"
  | notNumber block metric kind text =>
    s!"block {block}: metric `{metric}` expected {kind.description} but found "
      ++ String.ofList (quoted text)
  | tooFewSamples metric count =>
    s!"metric `{metric}` has {count} samples, at least 3 are needed to trim both extremes"
  | unusableRecipe fault => s!"invalid recipe: {fault.message}"
  | capacityOverflow => "capacity overflow"

/-- The failure of file access that lies below, if there is one. -/
def cause? : LogError → Option FileError
  | unopened _ cause | unreadable cause | unreadableFile _ cause => some cause
  | _ => none

/-- The failure, told of a named file. -/
def inFile (path : String) : LogError → LogError
  | unreadable cause => unreadableFile path cause
  | error => error

end LogError

end BenchLog
