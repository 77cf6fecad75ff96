import BenchLog.Failure
import BenchLog.Summary

/-!
# Sessions

A `Session` is work on one log, step by step: its recipe can be changed between two parses, each
of which goes on where the last one stopped, series can be filled by hand, and the last summary is
kept until the next one. A step that fails leaves the session as it was, except where a step's
comment says otherwise.
-/

namespace BenchLog

structure Session where
  /-- What is left of the log. -/
  log : Log
  recipe : Recipe := { name := "session", metrics := [] }
  series : List Series := []
  summary : Option Summary := none

namespace Session

/-! ## The recipe -/

/-- Changes the recipe and checks it; the change stays even if the recipe cannot be used. -/
def editRecipe (edit : Recipe → Recipe) (session : Session) : Session × Except LogError Unit :=
  let recipe := edit session.recipe
  ({ session with recipe }, recipe.validate.mapError .unusableRecipe)

def setBlocks (blocks : Nat) : Session → Session × Except LogError Unit :=
  editRecipe fun recipe => { recipe with blocks }

def addMetric (spec : MetricSpec) : Session → Session × Except LogError Unit :=
  editRecipe fun recipe => { recipe with metrics := recipe.metrics ++ [spec] }

def removeMetric (name : String) : Session → Session × Except LogError Unit :=
  editRecipe fun recipe => { recipe with metrics := recipe.metrics.filter (·.name ≠ name) }

def loadRecipe (text : List Char) (session : Session) : Session × Except Failure Recipe :=
  match Recipe.ofText text with
  | .ok recipe => ({ session with recipe }, .ok recipe)
  | .error error => (session, .error (Failure.ofRecipeText error))

/-! ## Series -/

/-- Reads the next blocks off the log. If that fails, the lines that were read are gone, the bad
one included, and the series stay. -/
def parse (session : Session) : Session × Except LogError (List Series) :=
  let reading := session.recipe.parse session.log
  let session := { session with log := reading.rest }
  match reading.outcome with
  | .ok series => ({ session with series }, .ok series)
  | .error error => (session, .error error)

/-- Adds a series without samples, with room for so many of them. -/
def addSeries (spec : MetricSpec) (capacity : Nat) (session : Session) :
    Session × Except LogError Unit :=
  if HasRoom capacity then ({ session with series := session.series ++ [⟨spec, []⟩] }, .ok ())
  else (session, .error .capacityOverflow)

def putSeries (index : Nat) (series : Series) (session : Session) : Session :=
  { session with series := session.series.set index series }

/-- Adds a sample to the series of a number, if there is one, and tells its result. The sample
stays even if there is none. -/
def push? (index : Nat) (value : Binary64) (session : Session) :
    Option (Session × Except LogError MetricResult) := do
  let series ← session.series[index]?
  let series := { series with samples := series.samples ++ [value] }
  return (session.putSeries index series, MetricResult.ofSeries series)

/-- Adds the sample of a line to the series of a number, if there is one, and tells it together
with the trimmed mean. The block that a failure names is the number of samples so far. -/
def pushLine? (index : Nat) (line : List Char) (session : Session) :
    Option (Session × Except LogError (Binary64 × Option Binary64)) := do
  let series ← session.series[index]?
  match series.spec.sample series.samples.length line with
  | .error error => return (session, .error error)
  | .ok value =>
    let series := { series with samples := series.samples ++ [value] }
    let mean := (TrimmedMean.ofSamples? series.samples).map (·.mean)
    return (session.putSeries index series, .ok (value, mean))

def clearSeries (session : Session) : Session := { session with series := [] }

/-! ## The summary -/

/-- Summarizes the series. If that fails, there is no summary any more. -/
def summarize (session : Session) : Session × Except LogError Summary :=
  match (Summary.ofSeries session.recipe session.series).2 with
  | .ok summary => ({ session with summary := some summary }, .ok summary)
  | .error error => ({ session with summary := none }, .error error)

/-- Sets the source of the summary, if there is one. -/
def setSource? (source : Option String) (session : Session) : Option Session := do
  let summary ← session.summary
  return { session with summary := some { summary with source } }

end Session

end BenchLog
