/-!
# The lines of a log

A `Log` is a list of bytes. A line ends with a line feed, which belongs to it; the last line may
lack one, and nothing follows a final line feed. `takeLine?` takes the first line off a log and
`lines` cuts a whole log. A line is text only if its bytes are valid UTF-8 (`decode?`), and that
is asked of each line by itself, when it is read.
-/

namespace BenchLog

/-- The bytes of a log, or what is left of them. -/
abbrev Log := List UInt8

namespace Log

/-- The byte that ends a line. -/
def lineFeed : UInt8 := 10

/-- Cuts a log after its first line. -/
def splitLine : Log → List UInt8 × Log
  | [] => ([], [])
  | byte :: rest =>
    if byte = lineFeed then ([byte], rest)
    else
      let (line, rest) := splitLine rest
      (byte :: line, rest)

/-- Takes the first line off a log; there is none when nothing is left. -/
def takeLine? (log : Log) : Option (List UInt8 × Log) :=
  if log.isEmpty then none else some log.splitLine

theorem splitLine_append (log : Log) : log.splitLine.1 ++ log.splitLine.2 = log := by
  induction log with
  | nil => rfl
  | cons byte rest ih =>
    unfold splitLine
    split
    · rfl
    · exact congrArg (byte :: ·) ih

def lines : Log → List (List UInt8)
  | [] => []
  | byte :: rest =>
    if byte = lineFeed then [byte] :: lines rest
    else match lines rest with
      | [] => [[byte]]
      | line :: more => (byte :: line) :: more

theorem lines_eq_nil {log : Log} : log.lines = [] ↔ log = [] := by
  cases log with
  | nil => simp [lines]
  | cons byte rest =>
    unfold lines
    split
    · simp
    · split <;> simp

/-- The lines of a log are its first line and those of what follows. -/
theorem lines_of_ne_nil {log : Log} (h : log ≠ []) :
    log.lines = log.splitLine.1 :: lines log.splitLine.2 := by
  induction log with
  | nil => contradiction
  | cons byte rest ih =>
    rw [lines, splitLine]
    by_cases feed : byte = lineFeed
    · simp only [feed, if_true]
    · simp only [feed, if_false]
      cases rest with
      | nil => rfl
      | cons next more => rw [ih (by simp)]

/-- The text that the bytes spell in UTF-8, if they do. -/
def decode? (bytes : List UInt8) : Option (List Char) :=
  (String.fromUTF8? bytes.toByteArray).map String.toList

/-- The bytes that spell a text in UTF-8. -/
def encode (text : List Char) : List UInt8 := text.flatMap String.utf8EncodeChar

theorem toByteArray_encode (text : List Char) :
    (encode text).toByteArray = (String.ofList text).toByteArray := by
  rw [String.toByteArray_ofList]
  rfl

theorem decode?_encode (text : List Char) : decode? (encode text) = some text := by
  unfold decode? String.fromUTF8?
  rw [toByteArray_encode, dif_pos (String.ofList text).isValidUTF8]
  exact congrArg some String.toList_ofList

theorem encode_append (text more : List Char) :
    encode (text ++ more) = encode text ++ encode more := List.flatMap_append

end Log

end BenchLog
