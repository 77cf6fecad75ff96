import BenchLog.Log.Blocks
import BenchLog.Stats.Spread
import BenchLog.Stats.Trimmed

/-!
# Summaries

A `Summary` holds the trimmed statistics of every metric of a log, in the order of the recipe. It
is made of all series or not at all: `summarize` ends with the first one that cannot be trimmed.
-/

namespace BenchLog

/-- The trimmed statistics of one metric. -/
structure MetricResult where
  name : String
  /-- What kind of number the lines of the metric hold. -/
  kind : NumericKind
  /-- The mean without one least and one greatest sample. -/
  mean : Binary64
  droppedMin : Binary64
  droppedMax : Binary64
  spread : Spread
  /-- All samples, in the order in which they were read. -/
  samples : List Binary64
  deriving DecidableEq

/-- The results of a whole log. -/
structure Summary where
  /-- The name of the recipe that the log was read with. -/
  recipe : String
  /-- The file that the log came from, if any. -/
  source : Option String := none
  blocks : Nat
  metrics : List MetricResult
  deriving DecidableEq

def MetricResult.ofSeries (series : Series) : Except LogError MetricResult :=
  let tooFew := LogError.tooFewSamples series.spec.name series.samples.length
  match TrimmedMean.ofSamples? series.samples with
  | none => .error tooFew
  | some trimmed =>
    match Spread.ofSamples? trimmed.kept with
    | none => .error tooFew
    | some spread => .ok {
        name := series.spec.name
        kind := series.spec.kind
        mean := trimmed.mean
        droppedMin := trimmed.droppedMin
        droppedMax := trimmed.droppedMax
        spread
        samples := series.samples }

def MetricResult.event (result : MetricResult) : Event :=
  .metricSummarized result.name result.mean result.droppedMin result.droppedMax

/-- The results of the series before the first that cannot be trimmed, and its failure, if any. -/
def resultsOf : List Series → List MetricResult × Except LogError Unit
  | [] => ([], .ok ())
  | series :: more =>
    match MetricResult.ofSeries series with
    | .error error => ([], .error error)
    | .ok result =>
      let (results, outcome) := resultsOf more
      (result :: results, outcome)

namespace Summary

/-- Summarizes series; the recipe gives its name and block count. -/
def ofSeries (recipe : Recipe) (series : List Series) : List Event × Except LogError Summary :=
  let (results, outcome) := resultsOf series
  (results.map MetricResult.event,
    outcome.map fun () => { recipe := recipe.name, blocks := recipe.blocks, metrics := results })

def means (summary : Summary) : List Binary64 := summary.metrics.map (·.mean)

def metric? (summary : Summary) (name : String) : Option MetricResult :=
  summary.metrics.find? (·.name = name)

end Summary

end BenchLog
