import BenchLog.Json.Number
import BenchLog.Json.Printer
import BenchLog.Json.Reader
import BenchLog.Summary

/-!
# The JSON report

`Summary.document` is a summary as a JSON document: an object with a member for each field, from
which an absent source is left out, and in which numbers that are not finite are `null`.
`Summary.ofDocument?` takes such a document apart. There every member may stand anywhere, unknown
members are passed over, and an object may also be the array of its fields; but a number that is
not finite does not come back.
-/

namespace BenchLog

/-! ## Writing -/

/-- A double; `null`, if it is not finite. -/
def Binary64.document (x : Binary64) : Json :=
  match Json.Number.ofBinary64? x with
  | some n => .number n
  | none => .null

def Spread.document (spread : Spread) : Json :=
  .record [("min", spread.min.document), ("p50", spread.p50.document),
    ("max", spread.max.document), ("mean", spread.mean.document),
    ("std_dev", spread.stdDev.document), ("count", .natural spread.count)]

def MetricResult.document (result : MetricResult) : Json :=
  .record [("name", .text result.name), ("kind", .text result.kind.word),
    ("mean", result.mean.document), ("dropped_min", result.droppedMin.document),
    ("dropped_max", result.droppedMax.document), ("spread", result.spread.document),
    ("samples", .array (result.samples.map Binary64.document))]

def Summary.document (summary : Summary) : Json :=
  let source := match summary.source with
    | some source => [("source", Json.text source)]
    | none => []
  .record ([("recipe", .text summary.recipe)] ++ source
    ++ [("blocks", .natural summary.blocks),
      ("metrics", .array (summary.metrics.map MetricResult.document))])

/-- The JSON report: the document in the given layout, and a line feed. -/
def Summary.json (layout : Json.Layout) (summary : Summary) : List Char :=
  summary.document.render layout ++ ['\n']

/-! ## Reading -/

def Binary64.ofDocument? : Json → Option Binary64
  | .number n => n.toBinary64?
  | _ => none

/-- The natural number below `2 ^ 64` of a number. -/
def countOfDocument? : Json → Option Nat
  | .number n => n.toNat?
  | _ => none

/-- A kind is its word, or an object with the word as its only name and `null` as the value. -/
def NumericKind.ofDocument? : Json → Option NumericKind
  | .string (some word) => ofWord? word
  | .object [(some word, .null)] => ofWord? word
  | _ => none

def Spread.ofDocument? (document : Json) : Option Spread := do
  match ← document.fields? ["min", "p50", "max", "mean", "std_dev", "count"] with
  | [some min, some p50, some max, some mean, some stdDev, some count] =>
    return {
      min := ← Binary64.ofDocument? min
      p50 := ← Binary64.ofDocument? p50
      max := ← Binary64.ofDocument? max
      mean := ← Binary64.ofDocument? mean
      stdDev := ← Binary64.ofDocument? stdDev
      count := ← countOfDocument? count }
  | _ => none

def MetricResult.ofDocument? (document : Json) : Option MetricResult := do
  let names := ["name", "kind", "mean", "dropped_min", "dropped_max", "spread", "samples"]
  match ← document.fields? names with
  | [some name, some kind, some mean, some droppedMin, some droppedMax, some spread,
      some samples] =>
    return {
      name := ← name.text?
      kind := ← NumericKind.ofDocument? kind
      mean := ← Binary64.ofDocument? mean
      droppedMin := ← Binary64.ofDocument? droppedMin
      droppedMax := ← Binary64.ofDocument? droppedMax
      spread := ← Spread.ofDocument? spread
      samples := ← (← samples.items?).mapM Binary64.ofDocument? }
  | _ => none

/-- A source may be absent or `null`. -/
def sourceOfDocument? : Option Json → Option (Option String)
  | none | some .null => some none
  | some document => document.text?.map some

def Summary.ofDocument? (document : Json) : Option Summary := do
  match ← document.fields? ["recipe", "source", "blocks", "metrics"] with
  | [some recipe, source, some blocks, some metrics] =>
    return {
      recipe := ← recipe.text?
      source := ← sourceOfDocument? source
      blocks := ← countOfDocument? blocks
      metrics := ← (← metrics.items?).mapM MetricResult.ofDocument? }
  | _ => none

def Summary.ofJson? (text : List Char) : Option Summary := do
  Summary.ofDocument? (← Json.read? text)

end BenchLog
