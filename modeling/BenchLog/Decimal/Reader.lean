import BenchLog.Decimal.Basic

/-!
# Reading numbers

`Integer.read?` reads a whole number that fits 64 signed bits: an optional sign and at least one
ASCII digit. `Binary64.read?` reads a double-precision number: an optional sign, then ASCII
digits with at most one point among or around them and at least one digit, optionally followed by
`e` or `E`, an optional sign and at least one digit; or, in any letter case, `inf`, `infinity` or
`nan`. Nothing may stand before or after, and the number is the nearest one, however long the
text.
-/

namespace BenchLog

/-- Splits a text into its longest run of ASCII digits and the rest. -/
def spanDigits (text : List Char) : List Char × List Char :=
  (text.takeWhile Char.isDigit, text.dropWhile Char.isDigit)

/-- Digits are split off where something else follows. -/
theorem spanDigits_append {digits rest : List Char} (all : ∀ c ∈ digits, c.isDigit = true)
    (stop : ∀ c ∈ rest.head?, c.isDigit = false) :
    spanDigits (digits ++ rest) = (digits, rest) := by
  unfold spanDigits
  rw [List.takeWhile_append_of_pos all, List.dropWhile_append_of_pos all]
  cases rest with
  | nil => simp
  | cons c rest => simp [stop c (by simp)]

/-- The natural number that a run of digits spells. -/
def digitsValue (digits : List Char) : Nat := Nat.ofDigitChars 10 digits 0

/-- Takes an optional sign off a text; is it a minus? -/
def takeSign : List Char → Bool × List Char
  | '-' :: rest => (true, rest)
  | '+' :: rest => (false, rest)
  | text => (false, text)

def fitsSigned64 (n : Int) : Bool := Int64.minValue.toInt ≤ n && n ≤ Int64.maxValue.toInt

theorem fitsSigned64_iff {n : Int} :
    fitsSigned64 n = true ↔ -9223372036854775808 ≤ n ∧ n ≤ 9223372036854775807 := by
  have low : Int64.minValue.toInt = -9223372036854775808 := by decide
  have high : Int64.maxValue.toInt = 9223372036854775807 := by decide
  simp only [fitsSigned64, low, high, Bool.and_eq_true, decide_eq_true_eq]

/-- Reads a whole number that fits 64 signed bits. -/
def readInteger? (text : List Char) : Option Int :=
  let (negative, digits) := takeSign text
  if digits.isEmpty || !digits.all Char.isDigit then none
  else
    let value : Int := if negative then -(digitsValue digits : Int) else digitsValue digits
    if fitsSigned64 value then some value else none

namespace Decimal

/-- Reads an exponent, which is empty or begins with `e` or `E`. -/
def readExponent? : List Char → Option Int
  | [] => some 0
  | mark :: rest =>
    let (negative, digits) := takeSign rest
    if (mark = 'e' || mark = 'E') && !digits.isEmpty && digits.all Char.isDigit then
      some (if negative then -(digitsValue digits : Int) else digitsValue digits)
    else none

/-- The decimal with the given digits before and after the point, scaled by a power of ten. -/
def ofParts (whole fraction : List Char) (exponent : Int) : Decimal :=
  ⟨digitsValue (whole ++ fraction), exponent - fraction.length⟩

/-- Takes a point and the digits after it off a text; without a point there are none. -/
def takeFraction : List Char → List Char × List Char
  | '.' :: rest => spanDigits rest
  | text => ([], text)

/-- Reads a decimal without a sign. -/
def read? (text : List Char) : Option Decimal :=
  let (whole, rest) := spanDigits text
  let (fraction, rest) := takeFraction rest
  if whole.isEmpty && fraction.isEmpty then none
  else (readExponent? rest).map (ofParts whole fraction)

end Decimal

namespace Binary64

/-- The number that a word in lower case stands for. -/
def ofWord? (negative : Bool) (word : List Char) : Option Binary64 :=
  if word = "inf".toList || word = "infinity".toList then some { infinity with negative }
  else if word = "nan".toList then some { nan with negative }
  else none

def read? (text : List Char) : Option Binary64 :=
  let (negative, rest) := takeSign text
  match Decimal.read? rest with
  | some d => some (d.toBinary64 negative)
  | none => ofWord? negative (rest.map Char.toLower)

end Binary64

end BenchLog
