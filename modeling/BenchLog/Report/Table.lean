import BenchLog.Summary

/-!
# The table report

A few lines about the log, then a table with a row for each metric: its name, the trimmed mean,
the dropped samples, the standard deviation and the coefficient of variation. The first column is
as wide as the longest name takes bytes, and all padding is counted in characters.

Widths have no bound here. A printer that keeps the width of a column in 16 bits cannot print the
table of a name that takes more than 65535 bytes.
-/

namespace BenchLog.Table

open Binary64

/-! ## Figures -/

/-- A figure: four decimal places between -1 and 1, zero apart, and two elsewhere. -/
def figure (x : Binary64) : List Char :=
  if !eq x zero && lt x.abs (ofNat 1) then x.fixed 4 else x.fixed 2

/-- The coefficient of variation as a percentage; a dash if it is not finite. -/
def percentage (x : Binary64) : List Char :=
  if x.isFinite then (mul x hundred).fixed 2 ++ ['%'] else ['-']

/-! ## Rows -/

/-- Fills a text up to so many characters with spaces behind it. -/
def padRight (width : Nat) (text : List Char) : List Char :=
  text ++ List.replicate (width - text.length) ' '

/-- Fills a text up to so many characters with spaces before it. -/
def padLeft (width : Nat) (text : List Char) : List Char :=
  List.replicate (width - text.length) ' ' ++ text

theorem length_padRight (width : Nat) (text : List Char) :
    (padRight width text).length = max width text.length := by
  simp only [padRight, List.length_append, List.length_replicate]
  omega

theorem length_padLeft (width : Nat) (text : List Char) :
    (padLeft width text).length = max width text.length := by
  simp only [padLeft, List.length_append, List.length_replicate]
  omega

def bar : List Char := [' ', '│', ' ']

/-- A row: the name, and the figures with the widths of their columns. -/
def row (width : Nat) (name : List Char) (figures : List (Nat × List Char)) : List Char :=
  ' ' :: ' ' :: (padRight width name
    ++ figures.flatMap (fun (width, text) => bar ++ padLeft width text) ++ ['\n'])

def header (width : Nat) : List Char :=
  row width "Metric".toList
    [(16, "Trimmed mean".toList), (14, "Dropped min".toList), (14, "Dropped max".toList),
      (12, "Std dev".toList), (7, "CV".toList)]

def metricRow (width : Nat) (result : MetricResult) : List Char :=
  row width result.name.toList
    [(16, figure result.mean), (14, figure result.droppedMin), (14, figure result.droppedMax),
      (12, figure result.spread.stdDev), (7, percentage result.spread.coefficientOfVariation)]

/-- The line below the header; 79 is what the figures take, with the bars before them. -/
def rule (width : Nat) : List Char := ' ' :: ' ' :: (List.replicate (width + 79) '─' ++ ['\n'])

/-- The width of the first column: the bytes of the longest name, and no less than its title. -/
def nameWidth (summary : Summary) : Nat :=
  (summary.metrics.map (·.name.utf8ByteSize)).foldl max "Metric".length

/-! ## The report -/

def preamble (summary : Summary) : List Char :=
  let source := match summary.source with
    | some source => s!"Source:  {source}\n"
    | none => ""
  (s!"\nRecipe:  {summary.recipe}\n" ++ source
    ++ s!"Blocks:  {summary.blocks} (trimmed mean drops 1 min and 1 max per metric)\n\n").toList

end Table

def Summary.table (summary : Summary) : List Char :=
  let width := Table.nameWidth summary
  Table.preamble summary ++ Table.header width ++ Table.rule width
    ++ summary.metrics.flatMap (Table.metricRow width) ++ ['\n']

end BenchLog
