import BenchLog.Text.Radix

/-!
# TOML strings

There are four ways to write a string: between double quotes, where a backslash begins an escape,
and between single quotes, where nothing is special; and each of them between single or triple
quotes, of which the latter may span lines. Between triple quotes one or two quotes stand for
themselves, also right before the closing ones, a line feed right after the opening ones does not
count, and a backslash at the end of a line joins it to the next text.

`quoteText` writes a string between double quotes on one line, and `readText?` reads all four.
-/

namespace BenchLog.Toml

/-- Characters that need no escape: tab, and from the space on all but DEL. -/
def isPrintable (c : Char) : Bool := c = '\t' || (0x20 ≤ c.toNat && c ≠ '\x7f')

def isSpace (c : Char) : Bool := c = ' ' || c = '\t'

def takeNewline? : List Char → Option (List Char)
  | '\n' :: rest => some rest
  | '\r' :: '\n' :: rest => some rest
  | _ => none

/-- Does a text have nothing but spaces before its first line end? -/
def isLineEnd (text : List Char) : Bool := (takeNewline? (text.dropWhile isSpace)).isSome

/-- The character that a backslash and a mark stand for. -/
def unescape? : Char → Option Char
  | '"' => some '"'
  | '\\' => some '\\'
  | 'b' => some '\x08'
  | 'f' => some '\x0c'
  | 'n' => some '\n'
  | 'r' => some '\r'
  | 't' => some '\t'
  | _ => none

/-- The character whose code hexadecimal digits spell. -/
def charOfCode? (digits : List Char) : Option Char := do
  let code ← valueInBase? 16 digits
  if h : code.isValidChar then some (Char.ofNatAux code h) else none

/-- Puts a character before a text that was read. -/
def pushChar (c : Char) : List Char × List Char → List Char × List Char
  | (text, rest) => (c :: text, rest)

/-- What is read from behind three closing quotes on: up to two more quotes belong to the text. -/
def closeTriple (quote : Char) : List Char → List Char × List Char
  | c :: d :: rest =>
    if c = quote && d = quote then ([quote, quote], rest)
    else if c = quote then ([quote], d :: rest)
    else ([], c :: d :: rest)
  | [c] => if c = quote then ([quote], []) else ([], [c])
  | [] => ([], [])

/-- Reads a string between double quotes, from behind the opening ones, up to and with the closing
ones. `multiline` says that they are triple, and `joining` that a backslash at the end of a line
came last, after which spaces and line ends do not count. -/
def readBasic? (multiline joining : Bool) : List Char → Option (List Char × List Char)
  | [] => none
  | '"' :: '"' :: '"' :: rest =>
    if multiline then some (closeTriple '"' rest) else some ([], '"' :: '"' :: rest)
  | '"' :: rest =>
    if multiline then (readBasic? multiline false rest).map (pushChar '"') else some ([], rest)
  | '\\' :: 'u' :: a :: b :: c :: d :: rest => do
    let char ← charOfCode? [a, b, c, d]
    (readBasic? multiline false rest).map (pushChar char)
  | '\\' :: 'U' :: a :: b :: c :: d :: e :: f :: g :: h :: rest => do
    let char ← charOfCode? [a, b, c, d, e, f, g, h]
    (readBasic? multiline false rest).map (pushChar char)
  | '\\' :: mark :: rest =>
    match unescape? mark with
    | some char => (readBasic? multiline false rest).map (pushChar char)
    | none =>
      if multiline && isLineEnd (mark :: rest) then readBasic? multiline true (mark :: rest)
      else none
  | '\r' :: '\n' :: rest =>
    if !multiline then none
    else if joining then readBasic? multiline true rest
    else (readBasic? multiline false rest).map (pushChar '\n')
  | c :: rest =>
    if multiline && joining && (isSpace c || c = '\n') then readBasic? multiline true rest
    else if c ≠ '\\' && (isPrintable c || (multiline && c = '\n')) then
      (readBasic? multiline false rest).map (pushChar c)
    else none

/-- Reads a string between single quotes, from behind the opening ones, up to and with the closing
ones. -/
def readLiteral? (multiline : Bool) : List Char → Option (List Char × List Char)
  | [] => none
  | '\'' :: '\'' :: '\'' :: rest =>
    if multiline then some (closeTriple '\'' rest) else some ([], '\'' :: '\'' :: rest)
  | '\'' :: rest =>
    if multiline then (readLiteral? multiline rest).map (pushChar '\'') else some ([], rest)
  | '\r' :: '\n' :: rest =>
    if multiline then (readLiteral? multiline rest).map (pushChar '\n') else none
  | c :: rest =>
    if isPrintable c || (multiline && c = '\n') then
      (readLiteral? multiline rest).map (pushChar c)
    else none

/-- The text without a line end at its start. -/
def dropNewline (text : List Char) : List Char := (takeNewline? text).getD text

def readText? : List Char → Option (List Char × List Char)
  | '"' :: '"' :: '"' :: rest => readBasic? true false (dropNewline rest)
  | '"' :: rest => readBasic? false false rest
  | '\'' :: '\'' :: '\'' :: rest => readLiteral? true (dropNewline rest)
  | '\'' :: rest => readLiteral? false rest
  | _ => none

/-! ## Writing -/

/-- One character between double quotes. Quote and backslash have an escape of their own, and what
is not printable is written with its code. -/
def escape (c : Char) : List Char :=
  if c = '"' then ['\\', '"']
  else if c = '\\' then ['\\', '\\']
  else if isPrintable c then [c]
  else ['\\', 'u', '0', '0', Nat.digitChar (c.toNat / 16), Nat.digitChar (c.toNat % 16)]

def quoteText (text : List Char) : List Char := '"' :: (text.flatMap escape ++ ['"'])

end BenchLog.Toml
