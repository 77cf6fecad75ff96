/-!
# Metrics

A metric is one quantity measured in every run of a benchmark. `MetricSpec` says how its line in
the log is turned into a number: how many characters to drop at the end, what to do about
separators, and whether the rest is a whole number or a fraction.
-/

namespace BenchLog

inductive NumericKind where
  /-- A whole number that fits 64 signed bits. -/
  | integer
  | float
  deriving DecidableEq, Repr, Inhabited

namespace NumericKind

/-- The kind in words, for messages. -/
def description : NumericKind → String
  | integer => "an integer"
  | float => "a floating-point number"

/-- The kind as recipes and reports name it. -/
def word : NumericKind → String
  | integer => "integer"
  | float => "float"

def ofWord? (word : String) : Option NumericKind :=
  if word = "integer" then some integer
  else if word = "float" then some float
  else none

theorem ofWord?_word (kind : NumericKind) : ofWord? kind.word = some kind := by
  cases kind <;> decide

end NumericKind

/-- What is done about separators before a number is read. -/
inductive SeparatorRule where
  | keep
  /-- Points are thousands separators and are deleted. -/
  | removeDots
  /-- A comma is a decimal point. -/
  | commaToDot
  deriving DecidableEq, Repr, Inhabited

namespace SeparatorRule

def apply : SeparatorRule → List Char → List Char
  | keep, text => text
  | removeDots, text => text.filter (· ≠ '.')
  | commaToDot, text => text.map fun c => if c = ',' then '.' else c

/-- The rule as recipes name it. -/
def word : SeparatorRule → String
  | keep => "keep"
  | removeDots => "remove_dots"
  | commaToDot => "comma_to_dot"

def ofWord? (word : String) : Option SeparatorRule :=
  if word = "keep" then some keep
  else if word = "remove_dots" then some removeDots
  else if word = "comma_to_dot" then some commaToDot
  else none

theorem ofWord?_word (rule : SeparatorRule) : ofWord? rule.word = some rule := by
  cases rule <;> decide

end SeparatorRule

/-- How the line of one metric is read. -/
structure MetricSpec where
  /-- The name that reports and messages give to the metric. -/
  name : String
  kind : NumericKind := .float
  /-- How many characters are dropped at the end of the line, its terminator included. -/
  strip : Nat := 0
  separator : SeparatorRule := .keep
  deriving DecidableEq, Repr, Inhabited

end BenchLog
