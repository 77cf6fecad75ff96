import BenchLog.Files.Error
import BenchLog.Log.Lines

/-!
# Access to files

What a run does with files: it reads some and writes at most one. `FileAccess m` says how, in a
monad of one's choice, so that a run is the same on a `FileTree` and on a disk.
-/

namespace BenchLog

inductive Opened where
  | contents (bytes : Log)
  /-- Nothing can be read from it. -/
  | broken (cause : FileError)
  deriving DecidableEq

/-- How to read and write files. -/
structure FileAccess (m : Type → Type) where
  read : String → m (Except FileError Opened)
  /-- Makes a file of the given contents at a path, or replaces the contents of the one there. -/
  write : String → List UInt8 → m (Except FileError Unit)

def Opened.text : Opened → Except FileError (List Char)
  | contents bytes =>
    match Log.decode? bytes with
    | some text => .ok text
    | none => .error .notUtf8
  | broken cause => .error cause

end BenchLog
