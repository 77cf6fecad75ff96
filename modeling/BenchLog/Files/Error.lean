/-!
# Failures of file access
-/

namespace BenchLog

/-- Why a file could not be opened, read or written. -/
inductive FileError where
  /-- No file or directory of that name. -/
  | missing
  /-- A component of the path that has others below it is no directory. -/
  | notDirectory
  /-- A directory where a file is needed. -/
  | isDirectory
  /-- A component or the whole path is longer than the system takes. -/
  | nameTooLong
  /-- The path has a NUL character in it. -/
  | nulInPath
  | notUtf8
  /-- Any other failure, in the system's words. -/
  | other (message : String)
  deriving DecidableEq, Repr

namespace FileError

def message : FileError → String
  | missing => "No such file or directory (os error 2)"
  | notDirectory => "Not a directory (os error 20)"
  | isDirectory => "Is a directory (os error 21)"
  | nameTooLong => "File name too long (os error 36)"
  | nulInPath => "file name contained an unexpected NUL byte"
  | notUtf8 => "stream did not contain valid UTF-8"
  | other message => message

end FileError

end BenchLog
