import BenchLog.CommandLine.Run

/-!
# Tools

Three tools make a report of a log: two of them for the built-in recipes, and one that is told the
recipe. `Tool.run` is a whole run of a tool, from its arguments to what it leaves: an exit code,
and texts for the output and for the errors.
-/

namespace BenchLog

/-- A tool, by the recipe that it reads logs with. -/
inductive Tool where
  | counters
  | operations
  /-- The recipe is an argument. -/
  | anyRecipe
  deriving DecidableEq, Repr

/-- What a tool leaves. -/
structure Exit where
  code : Nat
  output : List Char := []
  errors : String := ""
  events : List Event := []

namespace Tool

def name : Tool → String
  | counters => "summarize-counters"
  | operations => "summarize-ops"
  | anyRecipe => "summarize-log"

def ofName? (name : String) : Option Tool :=
  if name = "summarize-counters" then some counters
  else if name = "summarize-ops" then some operations
  else if name = "summarize-log" then some anyRecipe
  else none

def version : String := "0.1.0"

def accepted (tool : Tool) : Arguments.Accepted := ⟨tool = anyRecipe, true⟩

def usage (tool : Tool) : String :=
  let recipe := if tool = anyRecipe then " --recipe RECIPE" else ""
  s!"Usage: {tool.name}{recipe} [--format FORMAT] [--output FILE] LOG\n"

def complaint : Arguments.Halt → String
  | .unknownArgument => "unexpected argument"
  | .repeatedOption => "an option cannot be used twice"
  | .invalidValue => "a value is missing or not possible"
  | .unneededValue => "a value for an option that takes none"
  | .missingArgument => "a required argument is missing"
  | .help | .version => ""

/-- What a tool leaves when its arguments ask for no run. -/
def halted (tool : Tool) : Arguments.Halt → Exit
  | .help => { code := 0, output := tool.usage.toList }
  | .version => { code := 0, output := s!"{tool.name} {version}\n".toList }
  | halt => { code := 2, errors := s!"error: {complaint halt}\n\n{tool.usage}" }

def finished (earlier : List Event) (run : Run) : Exit :=
  let events := earlier ++ run.events
  match run.outcome with
  | .ok () => { code := 0, output := run.output, events }
  | .error failure =>
    { code := failure.code, output := run.output, errors := failure.report, events }

variable {m : Type → Type} [Monad m]

/-- Runs a tool that is told the recipe. -/
def runResolved (files : FileAccess m) (arguments : Arguments) (name : String) : m Exit := do
  let (events, found) ← Recipe.resolve files name
  match found with
  | .error failure => return { code := failure.code, errors := failure.report, events }
  | .ok recipe =>
    let events := events ++ [.recipeLoaded recipe.name recipe.metrics.length]
    return finished events (← Run.perform files arguments recipe)

def run (files : FileAccess m) (tool : Tool) (args : List String) : m Exit := do
  match Arguments.parse tool.accepted args with
  | .error halt => return tool.halted halt
  | .ok arguments =>
    match tool with
    | counters => return finished [] (← Run.perform files arguments Recipe.counters)
    | operations => return finished [] (← Run.perform files arguments Recipe.operations)
    | anyRecipe => runResolved files arguments (arguments.recipe.getD "")

end Tool

end BenchLog
