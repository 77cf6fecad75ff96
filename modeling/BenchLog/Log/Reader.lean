import BenchLog.Event
import BenchLog.Log.Error
import BenchLog.Log.Lines

/-!
# Reading from a log

A `LogReader` takes lines off a log. It tells events on the way and ends with a value or a
failure; in both cases the lines it took stay taken, the one it failed on included.
-/

namespace BenchLog

/-- What reading from a log gave. -/
structure Reading (α : Type) where
  events : List Event
  outcome : Except LogError α
  /-- The bytes that were not taken. -/
  rest : Log

def LogReader (α : Type) : Type := Log → Reading α

namespace LogReader

variable {α β : Type}

def succeed (value : α) : LogReader α := fun log => ⟨[], .ok value, log⟩

def fail (error : LogError) : LogReader α := fun log => ⟨[], .error error, log⟩

def tell (event : Event) : LogReader Unit := fun log => ⟨[event], .ok (), log⟩

/-- Reads on after a success, with its value, where it stopped. -/
def andThen (reader : LogReader α) (next : α → LogReader β) : LogReader β := fun log =>
  let first := reader log
  match first.outcome with
  | .error error => ⟨first.events, .error error, first.rest⟩
  | .ok value =>
    let second := next value first.rest
    ⟨first.events ++ second.events, second.outcome, second.rest⟩

/-- Applies a function to the value of a success. -/
def mapValue (f : α → β) (reader : LogReader α) : LogReader β := fun log =>
  let reading := reader log
  ⟨reading.events, reading.outcome.map f, reading.rest⟩

instance : Monad LogReader where
  pure := succeed
  bind := andThen
  map := mapValue

/-- Reads the next line; there is none at the end of the log. A line that is not valid UTF-8 is
taken, but cannot be read. -/
def readLine : LogReader (Option (List Char)) := fun log =>
  match log.takeLine? with
  | none => ⟨[], .ok none, log⟩
  | some (line, rest) =>
    match Log.decode? line with
    | some text => ⟨[], .ok (some text), rest⟩
    | none => ⟨[], .error (.unreadable .notUtf8), rest⟩

end LogReader

end BenchLog
