import BenchLog.Toml.Scalar
import BenchLog.Toml.Table

/-!
# Reading TOML

`Toml.read?` reads a whole document. The reader is strict: a value ends with its line, control
characters stand nowhere, and an inline table is written on one line. Keys have at most
`longestKey` parts, and arrays and inline tables stand at most `deepestNesting` deep.
-/

namespace BenchLog.Toml

def longestKey : Nat := 79

/-- The most arrays and inline tables that stand inside each other. -/
def deepestNesting : Nat := 79

def skipSpace (text : List Char) : List Char := text.dropWhile isSpace

/-! ## Keys -/

def isBareKeyChar (c : Char) : Bool := c.isAlphanum || c = '-' || c = '_'

def readKeyPart? : List Char → Option (String × List Char)
  | '"' :: rest => (readBasic? false false rest).map fun (name, rest) => (String.ofList name, rest)
  | '\'' :: rest => (readLiteral? false rest).map fun (name, rest) => (String.ofList name, rest)
  | text =>
    let name := text.takeWhile isBareKeyChar
    if name.isEmpty then none else some (String.ofList name, text.dropWhile isBareKeyChar)

/-- Reads a key of at most so many parts, with the spaces around its parts. -/
def readKeyUpTo? : Nat → List Char → Option (KeyPath × List Char)
  | 0, _ => none
  | parts + 1, text => do
    let (name, rest) ← readKeyPart? (skipSpace text)
    match skipSpace rest with
    | '.' :: rest =>
      let (path, rest) ← readKeyUpTo? parts rest
      return ({ path with parents := name :: path.parents }, rest)
    | rest => return (⟨[], name⟩, rest)

def readKey? (text : List Char) : Option (KeyPath × List Char) := readKeyUpTo? longestKey text

/-! ## Values -/

/-- Skips spaces, line ends and comments; `comment` says that a comment has begun. -/
def skipFiller (comment : Bool) : List Char → List Char
  | [] => []
  | '\n' :: rest => skipFiller false rest
  | '\r' :: '\n' :: rest => skipFiller false rest
  | c :: rest =>
    if comment then (if isPrintable c then skipFiller true rest else c :: rest)
    else if c = '#' then skipFiller true rest
    else if isSpace c then skipFiller false rest
    else c :: rest

/-- Reads at least one item of an array, up to and with the closing bracket. A comma may follow
the last item. -/
def readItems? (item? : List Char → Option (Toml × List Char)) :
    Nat → List Char → Option (List Toml × List Char)
  | 0, _ => none
  | fuel + 1, text => do
    let (item, rest) ← item? (skipFiller false text)
    match skipFiller false rest with
    | ']' :: rest => return ([item], rest)
    | ',' :: rest =>
      match skipFiller false rest with
      | ']' :: rest => return ([item], rest)
      | rest =>
        let (items, rest) ← readItems? item? fuel rest
        return (item :: items, rest)
    | _ => none

/-- Reads at least one member of an inline table, up to and with the closing bracket. -/
def readMembers? (value? : List Char → Option (Toml × List Char)) :
    Nat → List Char → Option (List (KeyPath × Toml) × List Char)
  | 0, _ => none
  | fuel + 1, text => do
    let (path, rest) ← readKey? text
    match rest with
    | '=' :: rest =>
      let (value, rest) ← value? (skipSpace rest)
      match skipSpace rest with
      | '\x7d' :: rest => return ([(path, value)], rest)
      | ',' :: rest =>
        let (members, rest) ← readMembers? value? fuel rest
        return ((path, value) :: members, rest)
      | _ => none
    | _ => none

/-- Reads a value in which arrays and inline tables stand at most so deep. -/
def readValue? : Nat → List Char → Option (Toml × List Char)
  | 0, text => readPlain? text
  | depth + 1, text =>
    match text with
    | '[' :: rest =>
      match skipFiller false rest with
      | ']' :: rest => some (array [], rest)
      | rest => (readItems? (readValue? depth) rest.length rest).map fun (items, rest) =>
          (array items, rest)
    | '\x7b' :: rest =>
      match skipSpace rest with
      | '\x7d' :: rest => some (table [], rest)
      | rest => do
        let (members, rest) ← readMembers? (readValue? depth) rest.length rest
        return (← inlineTable? members, rest)
    | text => readPlain? text
where
  readPlain? (text : List Char) : Option (Toml × List Char) :=
    match readText? text with
    | some (value, rest) => some (string (String.ofList value), rest)
    | none => readWord? text

/-! ## Statements -/

/-- Takes the rest of a line off a text: spaces, a comment and the line end, which the last line
may lack. -/
def takeLineEnd? (text : List Char) : Option (List Char) :=
  let rest := match skipSpace text with
    | '#' :: comment => comment.dropWhile isPrintable
    | rest => rest
  if rest.isEmpty then some [] else takeNewline? rest

/-- Reads a statement, with the line that it ends. -/
def readStatement? : List Char → Option (Statement × List Char)
  | '[' :: '[' :: rest => do
    let (path, rest) ← readKey? rest
    match rest with
    | ']' :: ']' :: rest => return (.element path, ← takeLineEnd? rest)
    | _ => none
  | '[' :: rest => do
    let (path, rest) ← readKey? rest
    match rest with
    | ']' :: rest => return (.header path, ← takeLineEnd? rest)
    | _ => none
  | text => do
    let (path, rest) ← readKey? text
    match rest with
    | '=' :: rest =>
      let (value, rest) ← readValue? deepestNesting (skipSpace rest)
      return (.entry path value, ← takeLineEnd? rest)
    | _ => none

def readStatements? : Nat → List Char → Option (List Statement)
  | 0, _ => none
  | fuel + 1, text =>
    match skipFiller false text with
    | [] => some []
    | rest => do
      let (statement, rest) ← readStatement? rest
      let statements ← readStatements? fuel rest
      return statement :: statements

/-- The text without a byte order mark at its start. -/
def dropMark : List Char → List Char
  | '\uFEFF' :: rest => rest
  | text => text

/-- Reads a document. Each statement takes a character, so the fuel suffices. -/
def read? (text : List Char) : Option Toml := do
  ofStatements? (← readStatements? (text.length + 1) (dropMark text))

end BenchLog.Toml
