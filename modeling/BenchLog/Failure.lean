import BenchLog.Log.Error
import BenchLog.Recipe.Document

/-!
# Failures of a run

A `Failure` is what went wrong, behind what was being done at the time, outermost first.
`Failure.report` is the text of it that a tool ends with, and `Failure.code` its exit code. A tool
that gives up at once tells only why; that the system also tells where in the program is left out.
-/

namespace BenchLog

inductive Failure.Cause where
  | log (error : LogError)
  | file (error : FileError)
  | malformedRecipe
  deriving DecidableEq, Repr

structure Failure where
  /-- What was being done, outermost first. -/
  contexts : List String := []
  cause : Failure.Cause
  deriving DecidableEq, Repr

namespace Failure

/-- The texts of a cause: its own, and that of the failure of file access below it. -/
def Cause.texts : Cause → List String
  | log error => error.message :: (error.cause?.map FileError.message).toList
  | file error => [error.message]
  | malformedRecipe => ["the text is not a recipe"]

/-- The failure, told of something larger that was being done. -/
def within (context : String) (failure : Failure) : Failure :=
  { failure with contexts := context :: failure.contexts }

def ofRecipeText : Recipe.TextError → Failure
  | .malformed => ⟨["Failed to parse TOML recipe"], .malformedRecipe⟩
  | .unusable fault => ⟨[], .log (.unusableRecipe fault)⟩

def texts (failure : Failure) : List String := failure.contexts ++ failure.cause.texts

/-- A text that may have several lines, of which all but the first get so many spaces. -/
def indent (spaces : Nat) (text : String) : String :=
  String.ofList (text.toList.flatMap fun c =>
    if c = '\n' then '\n' :: List.replicate spaces ' ' else [c])

/-- A number, filled up to five characters with spaces before it. -/
def numberLabel (n : Nat) : String :=
  let digits := Nat.toDigits 10 n
  String.ofList (List.replicate (5 - digits.length) ' ' ++ digits) ++ ": "

/-- The lines below the first: a single cause by itself, several ones with numbers. -/
def causeLines : List String → String
  | [cause] => s!"    {indent 4 cause}\n"
  | causes => String.join (causes.mapIdx fun n cause => s!"{numberLabel n}{indent 7 cause}\n")

/-- The tool gives up at once, without a word on what was being done. -/
def isPanic (failure : Failure) : Bool := failure.cause = .log .capacityOverflow

def code (failure : Failure) : Nat := if failure.isPanic then 101 else 1

/-- The text that a tool ends with. -/
def report (failure : Failure) : String :=
  if failure.isPanic then String.join failure.cause.texts ++ "\n"
  else match failure.texts with
  | [] => ""
  | [text] => s!"Error: {text}\n"
  | text :: causes => s!"Error: {text}\n\nCaused by:\n{causeLines causes}"

end Failure

end BenchLog
