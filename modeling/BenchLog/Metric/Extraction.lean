import BenchLog.Decimal.Reader
import BenchLog.Metric.Basic
import BenchLog.Text.Blank

/-!
# From a line to a number

`MetricSpec.clean` takes a line as it stands in the log, terminator included, and gives the text
that has to be a number: the last characters are dropped, then the separator rule is applied, then
white space at both ends goes. `MetricSpec.extract?` reads that text.
-/

namespace BenchLog

/-- The line without its last `count` characters; nothing, if it has no more than these. -/
def stripTrailing (count : Nat) (line : List Char) : List Char := line.take (line.length - count)

@[simp] theorem stripTrailing_zero (line : List Char) : stripTrailing 0 line = line := by
  simp [stripTrailing]

theorem stripTrailing_append (line suffix : List Char) :
    stripTrailing suffix.length (line ++ suffix) = line := by
  simp [stripTrailing]

namespace MetricSpec

/-- The text of a line that has to be a number. -/
def clean (spec : MetricSpec) (line : List Char) : List Char :=
  trim (spec.separator.apply (stripTrailing spec.strip line))

/-- Reads a text as a number of the given kind. A whole number becomes the nearest double. -/
def readAs? : NumericKind → List Char → Option Binary64
  | .integer, text => (readInteger? text).map Binary64.ofInt
  | .float, text => Binary64.read? text

def extract? (spec : MetricSpec) (line : List Char) : Option Binary64 :=
  readAs? spec.kind (spec.clean line)

end MetricSpec

end BenchLog
