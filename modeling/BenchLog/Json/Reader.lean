import BenchLog.Decimal.Reader
import BenchLog.Json.Value
import BenchLog.Text.Radix

/-!
# Reading JSON

`Json.read?` reads a text that is one JSON document, with blanks around it. Four characters are
blank. Numbers have no leading zeros and digits on both sides of a point; inside a string every
character below the space has to be escaped.
-/

namespace BenchLog.Json

def isBlank (c : Char) : Bool := c = ' ' || c = '\n' || c = '\r' || c = '\t'

def skipBlank (text : List Char) : List Char := text.dropWhile isBlank

/-! ## Strings -/

/-- The character that a backslash and a mark stand for. -/
def unescape? : Char → Option Char
  | '"' => some '"'
  | '\\' => some '\\'
  | '/' => some '/'
  | 'b' => some '\x08'
  | 'f' => some '\x0c'
  | 'n' => some '\n'
  | 'r' => some '\r'
  | 't' => some '\t'
  | _ => none

/-- Reads a string from behind its opening quote, as the codes that it spells, up to and with the
closing quote. -/
def readCodes? : List Char → Option (List Nat × List Char)
  | [] => none
  | '"' :: rest => some ([], rest)
  | '\\' :: 'u' :: a :: b :: c :: d :: rest => do
    let code ← valueInBase? 16 [a, b, c, d]
    let (codes, rest) ← readCodes? rest
    return (code :: codes, rest)
  | '\\' :: mark :: rest => do
    let c ← unescape? mark
    let (codes, rest) ← readCodes? rest
    return (c.toNat :: codes, rest)
  | c :: rest =>
    if c.toNat < 0x20 || c = '\\' then none
    else do
      let (codes, rest) ← readCodes? rest
      return (c.toNat :: codes, rest)

/-- Is the code the first half of a surrogate pair? -/
def isHighSurrogate (code : Nat) : Bool := 0xD800 ≤ code && code < 0xDC00

/-- Is the code the second half of a surrogate pair? -/
def isLowSurrogate (code : Nat) : Bool := 0xDC00 ≤ code && code < 0xE000

/-- The text of a string. Two codes that are a surrogate pair are one character; half a pair is
none. -/
def textOfCodes? : List Nat → Option (List Char)
  | [] => some []
  | high :: low :: rest =>
    if isHighSurrogate high && isLowSurrogate low then
      (Char.ofNat (0x10000 + (high - 0xD800) * 0x400 + (low - 0xDC00)) :: ·) <$> textOfCodes? rest
    else if isHighSurrogate high || isLowSurrogate high then none
    else (Char.ofNat high :: ·) <$> textOfCodes? (low :: rest)
  | [code] =>
    if isHighSurrogate code || isLowSurrogate code then none else some [Char.ofNat code]

/-- Reads a string from behind its opening quote. -/
def readString? (text : List Char) : Option (Option String × List Char) :=
  (readCodes? text).map fun (codes, rest) => ((textOfCodes? codes).map String.ofList, rest)

/-! ## Numbers -/

/-- Reads the digits before the point: a zero alone, or digits that do not begin with a zero. -/
def readWhole? (text : List Char) : Option (List Char × List Char) :=
  let (digits, rest) := spanDigits text
  if digits.isEmpty || (digits.head? = some '0' && digits ≠ ['0']) then none
  else some (digits, rest)

/-- Reads a point and the digits after it, if a point is next. -/
def readFraction? : List Char → Option (List Char × List Char)
  | '.' :: rest =>
    let (digits, rest) := spanDigits rest
    if digits.isEmpty then none else some (digits, rest)
  | text => some ([], text)

/-- Reads an exponent, if `e` or `E` is next. -/
def readExponent? : List Char → Option (Option Int × List Char)
  | [] => some (none, [])
  | mark :: rest =>
    if mark = 'e' || mark = 'E' then
      let (negative, rest) := takeSign rest
      let (digits, rest) := spanDigits rest
      if digits.isEmpty then none
      else some (some (if negative then -(digitsValue digits : Int) else digitsValue digits), rest)
    else some (none, mark :: rest)

/-- Reads a number without its sign. -/
def readUnsigned? (negative : Bool) (text : List Char) : Option (Number × List Char) := do
  let (whole, rest) ← readWhole? text
  let (fraction, rest) ← readFraction? rest
  let (exponent, rest) ← readExponent? rest
  return ({ negative, whole, fraction, exponent }, rest)

def readNumber? : List Char → Option (Number × List Char)
  | '-' :: rest => readUnsigned? true rest
  | text => readUnsigned? false text

/-! ## Documents -/

/-- Reads a number or one of the three words. -/
def readScalar? : List Char → Option (Json × List Char)
  | 'n' :: 'u' :: 'l' :: 'l' :: rest => some (null, rest)
  | 't' :: 'r' :: 'u' :: 'e' :: rest => some (boolean true, rest)
  | 'f' :: 'a' :: 'l' :: 's' :: 'e' :: rest => some (boolean false, rest)
  | text => (readNumber? text).map fun (n, rest) => (number n, rest)

mutual

/-- Reads a document, with blanks before it. -/
def readValue? : Nat → List Char → Option (Json × List Char)
  | 0, _ => none
  | fuel + 1, text =>
    match skipBlank text with
    | '"' :: rest => (readString? rest).map fun (text, rest) => (string text, rest)
    | '[' :: rest =>
      match skipBlank rest with
      | ']' :: rest => some (array [], rest)
      | rest => (readItems? fuel rest).map fun (items, rest) => (array items, rest)
    | '\x7b' :: rest =>
      match skipBlank rest with
      | '\x7d' :: rest => some (object [], rest)
      | rest => (readMembers? fuel rest).map fun (members, rest) => (object members, rest)
    | rest => readScalar? rest

/-- Reads at least one item of an array, up to and with the closing bracket. -/
def readItems? : Nat → List Char → Option (List Json × List Char)
  | 0, _ => none
  | fuel + 1, text => do
    let (item, rest) ← readValue? fuel text
    match skipBlank rest with
    | ',' :: rest =>
      let (items, rest) ← readItems? fuel rest
      return (item :: items, rest)
    | ']' :: rest => return ([item], rest)
    | _ => none

/-- Reads at least one member of an object, up to and with the closing bracket. -/
def readMembers? : Nat → List Char → Option (List (Option String × Json) × List Char)
  | 0, _ => none
  | fuel + 1, text =>
    match skipBlank text with
    | '"' :: rest => do
      let (name, rest) ← readString? rest
      match skipBlank rest with
      | ':' :: rest =>
        let (value, rest) ← readValue? fuel rest
        match skipBlank rest with
        | ',' :: rest =>
          let (members, rest) ← readMembers? fuel rest
          return ((name, value) :: members, rest)
        | '\x7d' :: rest => return ([(name, value)], rest)
        | _ => none
      | _ => none
    | _ => none

end

/-- Reads a text that is one document. Each step down takes a character, and at most two steps
are taken for each, so the fuel suffices. -/
def read? (text : List Char) : Option Json :=
  match readValue? (2 * text.length + 2) text with
  | some (document, rest) => if (skipBlank rest).isEmpty then some document else none
  | none => none

end BenchLog.Json
