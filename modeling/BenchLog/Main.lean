import BenchLog.CommandLine.Tool

/-!
# The program

`main` runs the tool that the first argument names on the files of the disk. The output gets the
report, the error output the warnings on the way and what went wrong.
-/

namespace BenchLog.Main

/-- What a failure of the disk is called here; the codes are those of the system. -/
def fileError : IO.Error → FileError
  | .noFileOrDirectory _ 2 _ => .missing
  | .inappropriateType _ 20 _ => .notDirectory
  | .inappropriateType _ 21 _ => .isDirectory
  | .invalidArgument _ 36 _ => .nameTooLong
  | .permissionDenied _ code details | .resourceExhausted _ code details
  | .invalidArgument _ code details | .hardwareFault code details
  | .otherError code details => .other s!"{details} (os error {code})"
  | error => .other (toString error)

def attempt {α : Type} (work : IO α) : IO (Except FileError α) := do
  match ← work.toBaseIO with
  | .ok value => return .ok value
  | .error error => return .error (fileError error)

/-- Access to the files of the disk. -/
def disk : FileAccess IO where
  read path := do
    match ← attempt (IO.FS.Handle.mk path .read) with
    | .error error => return .error error
    | .ok handle =>
      match ← attempt handle.readBinToEnd with
      | .ok bytes => return .ok (.contents bytes.toList)
      | .error error => return .ok (.broken error)
  write path bytes := attempt (IO.FS.writeBinFile path bytes.toByteArray)

end BenchLog.Main

open BenchLog in
/-- Runs a tool, which is the first argument, and exits with its code. -/
def main (args : List String) : IO UInt32 := do
  let (name, args) := (args.headD "", args.tail)
  match Tool.ofName? name with
  | none =>
    IO.eprintln "the first argument has to be summarize-counters, summarize-ops or summarize-log"
    return 2
  | some tool =>
    let exit ← tool.run Main.disk args
    for event in exit.events do
      if event.level = .warn then IO.eprintln s!"WARN {event.message}"
    IO.print (String.ofList exit.output)
    IO.eprint exit.errors
    return exit.code.toUInt32
