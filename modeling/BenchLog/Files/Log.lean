import BenchLog.Files.Access
import BenchLog.Summary

/-!
# Logs in files

`Recipe.readOpened` reads the series of a recipe off a file that was opened, or tells why it could
not be; `Summary.ofOpened` goes on to the summary, with the path as its source. Both tell what
happened on the way. A recipe that cannot be used is reported before anything is read, also of a
file from which nothing can be read, and so it is if there is no room for the samples.
-/

namespace BenchLog

/-- Reads the series of a recipe off an opened file. -/
def Recipe.readFrom (recipe : Recipe) : Opened → List Event × Except LogError (List Series)
  | .contents log =>
    let reading := recipe.parse log
    (reading.events, reading.outcome)
  | .broken cause =>
    match recipe.validate with
    | .error fault => ([], .error (.unusableRecipe fault))
    | .ok () =>
      ([], .error (if HasRoom recipe.blocks then .unreadable cause else .capacityOverflow))

/-- Reads the series of a recipe off the file at a path, given what opening it gave. -/
def Recipe.readOpened (recipe : Recipe) (path : String) :
    Except FileError Opened → List Event × Except LogError (List Series)
  | .error cause => ([], .error (.unopened path cause))
  | .ok opened =>
    let (events, outcome) := recipe.readFrom opened
    (.readingLog path :: events, outcome.mapError (.inFile path))

/-- Summarizes the file at a path, given what opening it gave. -/
def Summary.ofOpened (recipe : Recipe) (path : String) (opened : Except FileError Opened) :
    List Event × Except LogError Summary :=
  let (events, outcome) := recipe.readOpened path opened
  match outcome with
  | .error error => (events, .error error)
  | .ok series =>
    let (more, outcome) := Summary.ofSeries recipe series
    (events ++ more, outcome.map fun summary => { summary with source := some path })

end BenchLog
