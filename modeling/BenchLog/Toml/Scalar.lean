import BenchLog.Decimal.Reader
import BenchLog.Toml.Text
import BenchLog.Toml.Value

/-!
# Numbers, dates and words

What is not a string, an array or an inline table is written as one word of letters, digits and
the characters `+ - _ . :`, and the word as a whole is a number, a date-time or one of `true` and
`false`. Only a date and a time may also have a space between them.

Between the digits of a number single underscores may stand. A decimal whole part has no leading
zero. Whole numbers fit 64 signed bits, and a float is not so large that it would be read as
infinity.
-/

namespace BenchLog.Toml

def isWordChar (c : Char) : Bool := c.isAlphanum || ['+', '-', '_', '.', ':'].contains c

/-! ## Numbers -/

/-- At least one digit, single underscores between digits: the digits alone. -/
def digits? (isDigit : Char → Bool) : List Char → Option (List Char)
  | [] => none
  | [c] => if isDigit c then some [c] else none
  | c :: '_' :: rest => if isDigit c then (digits? isDigit rest).map (c :: ·) else none
  | c :: rest => if isDigit c then (digits? isDigit rest).map (c :: ·) else none

/-- The digits of a whole part, which is a zero alone or has no leading zero. -/
def wholeDigits? (text : List Char) : Option (List Char) := do
  let digits ← digits? Char.isDigit text
  if digits.head? = some '0' && digits ≠ ['0'] then none else some digits

/-- The whole number that is written in another base, without its mark. -/
def basedInteger? (base : Nat) (text : List Char) : Option Int := do
  let digits ← digits? (fun c => (digitValue? base c).isSome) text
  let value ← valueInBase? base digits
  if fitsSigned64 value then some value else none

def integer? : List Char → Option Int
  | '0' :: 'x' :: text => basedInteger? 16 text
  | '0' :: 'o' :: text => basedInteger? 8 text
  | '0' :: 'b' :: text => basedInteger? 2 text
  | text => do
    let (negative, text) := takeSign text
    let digits ← wholeDigits? text
    let value : Int := if negative then -(digitsValue digits : Int) else digitsValue digits
    if fitsSigned64 value then some value else none

/-- Splits a text after its longest run of digits and underscores. -/
def spanFigures (text : List Char) : List Char × List Char :=
  let isFigure (c : Char) : Bool := c.isDigit || c = '_'
  (text.takeWhile isFigure, text.dropWhile isFigure)

/-- The value of an exponent, with the letter before it. -/
def exponent? : List Char → Option Int
  | mark :: text =>
    if mark = 'e' || mark = 'E' then do
      let (negative, text) := takeSign text
      let digits ← digits? Char.isDigit text
      return if negative then -(digitsValue digits : Int) else digitsValue digits
    else none
  | [] => none

/-- The decimal that is written with a point, an exponent or both. -/
def decimal? (text : List Char) : Option Decimal := do
  let (whole, rest) := spanFigures text
  let whole ← wholeDigits? whole
  match rest with
  | '.' :: rest =>
    let (fraction, rest) := spanFigures rest
    let fraction ← digits? Char.isDigit fraction
    let exponent ← if rest.isEmpty then some 0 else exponent? rest
    return Decimal.ofParts whole fraction exponent
  | rest => return Decimal.ofParts whole [] (← exponent? rest)

def float? (text : List Char) : Option Binary64 :=
  let (negative, text) := takeSign text
  if text = "inf".toList then some { Binary64.infinity with negative }
  else if text = "nan".toList then some { Binary64.nan with negative }
  else do
    let x := (← decimal? text).toBinary64 negative
    if x = Binary64.infinity then none else some x

/-! ## Dates and times -/

/-- The value of a pair of digits, if it is not above the limit. -/
def pair? (limit : Nat) (a b : Char) : Option Nat :=
  if a.isDigit && b.isDigit && digitsValue [a, b] ≤ limit then some (digitsValue [a, b]) else none

def isLeapYear (year : Nat) : Bool := year % 4 = 0 && (year % 100 ≠ 0 || year % 400 = 0)

def daysInMonth (year month : Nat) : Nat :=
  if month = 2 then (if isLeapYear year then 29 else 28)
  else if month = 4 || month = 6 || month = 9 || month = 11 then 30
  else 31

/-- Is the text a date of the calendar, as `YYYY-MM-DD`? -/
def isDate : List Char → Bool
  | [y₁, y₂, y₃, y₄, '-', m₁, m₂, '-', d₁, d₂] =>
    match pair? 12 m₁ m₂, pair? 31 d₁ d₂ with
    | some month, some day =>
      [y₁, y₂, y₃, y₄].all Char.isDigit && 1 ≤ month && 1 ≤ day
        && day ≤ daysInMonth (digitsValue [y₁, y₂, y₃, y₄]) month
    | _, _ => false
  | _ => false

/-- Takes a time of day off a text, as `hh:mm:ss`, which may have a fraction. -/
def takeTime? : List Char → Option (List Char)
  | h₁ :: h₂ :: ':' :: m₁ :: m₂ :: ':' :: s₁ :: s₂ :: rest =>
    if (pair? 23 h₁ h₂).isSome && (pair? 59 m₁ m₂).isSome && (pair? 60 s₁ s₂).isSome then
      match rest with
      | '.' :: rest =>
        let (fraction, rest) := spanDigits rest
        if fraction.isEmpty then none else some rest
      | rest => some rest
    else none
  | _ => none

def isTime (text : List Char) : Bool := takeTime? text = some []

/-- Is the text an offset from universal time: `Z`, or hours and minutes with a sign? -/
def isOffset : List Char → Bool
  | [c] => c = 'Z' || c = 'z'
  | [sign, h₁, h₂, ':', m₁, m₂] =>
    (sign = '+' || sign = '-') && (pair? 23 h₁ h₂).isSome && (pair? 59 m₁ m₂).isSome
  | _ => false

/-- Is the text a time of day, with or without an offset? -/
def isClock (text : List Char) : Bool :=
  match takeTime? text with
  | some rest => rest.isEmpty || isOffset rest
  | none => false

/-- Is the text a date, a time, or a date and a time with `T` between them? -/
def isDateTime (text : List Char) : Bool :=
  isDate text || isTime text ||
    (isDate (text.take 10) &&
      match text.drop 10 with
      | mark :: clock => (mark = 'T' || mark = 't') && isClock clock
      | [] => false)

/-! ## Words -/

def ofWord? (word : List Char) : Option Toml :=
  if word = "true".toList then some (boolean true)
  else if word = "false".toList then some (boolean false)
  else if isDateTime word then some (dateTime (String.ofList word))
  else match integer? word with
    | some n => some (integer n)
    | none => (float? word).map float

/-- Splits a text after its longest run of word characters. -/
def spanWord (text : List Char) : List Char × List Char :=
  (text.takeWhile isWordChar, text.dropWhile isWordChar)

/-- Reads a value that is a word. Where a space and a digit follow a date, the time belongs to
it. -/
def readWord? (text : List Char) : Option (Toml × List Char) :=
  let (word, rest) := spanWord text
  match rest with
  | ' ' :: c :: more =>
    if isDate word && c.isDigit then
      let (clock, rest) := spanWord (c :: more)
      if isClock clock then some (dateTime (String.ofList (word ++ ' ' :: clock)), rest) else none
    else (ofWord? word).map (·, rest)
  | _ => (ofWord? word).map (·, rest)

end BenchLog.Toml
