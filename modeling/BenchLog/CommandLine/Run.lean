import BenchLog.CommandLine.Arguments
import BenchLog.Failure
import BenchLog.Files.Log

/-!
# Runs

`Run.perform` reads a log with a recipe and brings the report to where the arguments want it: to
the output, or into a file. Nothing is written before every metric is summarized.

`Recipe.load` and `Recipe.resolve` find the recipe that a name or a path stands for.
-/

namespace BenchLog

variable {m : Type → Type} [Monad m]

/-! ## Recipes in files -/

def Recipe.ofOpened (path : String) (opened : Except FileError Opened) : Except Failure Recipe :=
  match opened.bind Opened.text with
  | .error error => .error ⟨[s!"Failed to read recipe file: {path}"], .file error⟩
  | .ok text =>
    (ofText text).mapError fun error =>
      (Failure.ofRecipeText error).within s!"Invalid recipe file: {path}"

def Recipe.load (files : FileAccess m) (path : String) : m (Except Failure Recipe) := do
  return ofOpened path (← files.read path)

/-- Finds the recipe of a name: a built-in one, or else that of the file of this name. -/
def Recipe.resolve (files : FileAccess m) (name : String) :
    m (List Event × Except Failure Recipe) := do
  match builtin? name with
  | some recipe => return ([.builtinRecipe name], .ok recipe)
  | none => return ([], ← load files name)

/-! ## The run -/

/-- What a run does. -/
structure Run where
  events : List Event
  output : List Char := []
  outcome : Except Failure Unit

/-- Brings a report to where the arguments want it. -/
def Run.deliver (files : FileAccess m) (arguments : Arguments) (events : List Event)
    (report : List Char) : m Run := do
  match arguments.output with
  | none => return { events, output := report, outcome := .ok () }
  | some path =>
    match ← files.write path (Log.encode report) with
    | .error error =>
      let failure : Failure := ⟨[s!"Failed to write report to {path}"], .file error⟩
      return { events, outcome := .error failure }
    | .ok () => return { events := events ++ [.reportWritten path], outcome := .ok () }

/-- Summarizes a log and delivers the report. -/
def Run.perform (files : FileAccess m) (arguments : Arguments) (recipe : Recipe) : m Run := do
  let path := arguments.input
  let (told, outcome) := Summary.ofOpened recipe path (← files.read path)
  let events := .summarizing path recipe.name :: told
  match outcome with
  | .error error =>
    let failure : Failure := ⟨[s!"Failed to summarize {path}"], .log error⟩
    return { events, outcome := .error failure }
  | .ok summary => deliver files arguments events (summary.report arguments.format)

end BenchLog
