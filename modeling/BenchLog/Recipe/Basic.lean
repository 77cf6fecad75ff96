import BenchLog.Metric.Basic

/-!
# Recipes

A log is a run of blocks: one line for each metric of the recipe, in its order, then a separator
line. A `Recipe` lists the metrics and says how many blocks there are. `validate` accepts the
recipes that can give a trimmed mean of every metric; of several faults it reports the first in
the order of `Recipe.Fault`.
-/

namespace BenchLog

/-- The number of blocks of a recipe that does not say. -/
def Recipe.defaultBlocks : Nat := 10

/-- The fewest blocks that leave a sample when both extremes are dropped. -/
def Recipe.leastBlocks : Nat := 3

/-- The layout of a benchmark log. -/
structure Recipe where
  name : String
  blocks : Nat := Recipe.defaultBlocks
  metrics : List MetricSpec
  deriving DecidableEq, Repr, Inhabited

/-- Why a recipe cannot be used. -/
inductive Recipe.Fault where
  | noMetrics (recipe : String)
  | tooFewBlocks (recipe : String) (blocks : Nat)
  | repeatedMetric (metric : String)
  deriving DecidableEq, Repr

namespace Recipe

def Fault.message : Fault → String
  | noMetrics recipe => s!"recipe `{recipe}` declares no metrics"
  | tooFewBlocks recipe blocks =>
    s!"recipe `{recipe}` reads {blocks} blocks, at least {leastBlocks} are needed"
  | repeatedMetric metric => s!"metric `{metric}` is declared twice"

/-- The first name that stands in `seen` or further up in the list. -/
def firstRepeated? (seen : List String) : List String → Option String
  | [] => none
  | name :: names => if name ∈ seen then some name else firstRepeated? (name :: seen) names

/-- Checks that the recipe can give a trimmed mean of every metric. -/
def validate (recipe : Recipe) : Except Fault Unit :=
  if recipe.metrics.isEmpty then .error (.noMetrics recipe.name)
  else if recipe.blocks < leastBlocks then .error (.tooFewBlocks recipe.name recipe.blocks)
  else match firstRepeated? [] (recipe.metrics.map (·.name)) with
    | some metric => .error (.repeatedMetric metric)
    | none => .ok ()

/-! ## Built-in recipes -/

/-- Seven hardware counters in each block. -/
def counters : Recipe where
  name := "counters"
  blocks := defaultBlocks
  metrics := [
    ⟨"context_switches", .integer, 2, .removeDots⟩,
    ⟨"page_faults", .integer, 2, .removeDots⟩,
    ⟨"instructions", .float, 2, .commaToDot⟩,
    ⟨"branches", .float, 3, .commaToDot⟩,
    ⟨"l1d_cache_misses", .float, 3, .commaToDot⟩,
    ⟨"llc_misses", .float, 3, .commaToDot⟩,
    ⟨"elapsed_seconds", .float, 3, .commaToDot⟩]

/-- An operation count and an instruction count in each block. -/
def operations : Recipe where
  name := "operations"
  blocks := defaultBlocks
  metrics := [
    ⟨"operations", .integer, 2, .keep⟩,
    ⟨"instructions", .float, 2, .commaToDot⟩]

def builtin? (name : String) : Option Recipe :=
  if name = "counters" then some counters
  else if name = "operations" then some operations
  else none

end Recipe

end BenchLog
