import BenchLog.Decimal.Layout
import BenchLog.Json.Value

/-!
# JSON numbers and doubles

`Number.ofBinary64?` writes a finite double with the fewest digits that read back, of two equally
near texts the one whose last digit is even. It is written in full, with at least one decimal
place, if its first digit stands for a power of ten from -5 to 15, and otherwise with one digit
before the point and an exponent.

`Number.toBinary64?` reads a double in the quick way, which rounds more than once: the leading
digits, as many as fit 64 bits, make a whole number, which becomes a double and is then multiplied
or divided by a power of ten, a double as well. So the result is close to the number that is
written, and not always the nearest double. What exceeds the greatest double is refused.
-/

namespace BenchLog.Json.Number

/-! ## Writing -/

/-- The power of ten that the first digit of a decimal stands for. -/
def leadingExponent (d : Decimal) : Int :=
  d.exponent + ((Nat.toDigits 10 d.digits).length - 1 : Nat)

/-- Is a decimal written without an exponent? -/
def isPlain (d : Decimal) : Bool := -5 ≤ leadingExponent d && leadingExponent d ≤ 15

def ofDecimal (negative : Bool) (d : Decimal) : Number :=
  if isPlain d then
    let (whole, fraction) := d.expand
    { negative, whole, fraction := if fraction.isEmpty then ['0'] else fraction }
  else
    let digits := Nat.toDigits 10 d.digits
    { negative, whole := digits.take 1, fraction := digits.drop 1,
      exponent := some (leadingExponent d) }

/-- A finite double, as it is written; what is not finite has no number. -/
def ofBinary64? (x : Binary64) : Option Number :=
  if x.isFinite then some (ofDecimal x.negative (Decimal.shortest .even x.magnitude)) else none

/-! ## Reading -/

/-- Puts digits behind a significand as long as it stays below `2 ^ 64`: the significand, and the
digits that are left. -/
def absorb (significand : Nat) : List Char → Nat × List Char
  | [] => (significand, [])
  | digit :: digits =>
    let next := 10 * significand + (digit.toNat - 48)
    if next < UInt64.size then absorb next digits else (significand, digit :: digits)

/-- The greatest power of ten that a double can hold. -/
def greatestPower : Nat := 308

def powerOfTen (n : Nat) : Binary64 := Binary64.ofNat (Nat.pow 10 n)

/-- Multiplies a double by a power of ten. A greater power than a double can hold is reached in
steps, as long as the result is not zero; a result beyond the greatest double is refused. -/
def scaled? (x : Binary64) (exponent : Int) : Option Binary64 :=
  if exponent.natAbs ≤ greatestPower then
    if 0 ≤ exponent then
      let product := x.mul (powerOfTen exponent.natAbs)
      if product.isInfinite then none else some product
    else some (x.div (powerOfTen exponent.natAbs))
  else if x.isZero then some x
  else if 0 ≤ exponent then none
  else scaled? (x.div (powerOfTen greatestPower)) (exponent + greatestPower)
termination_by exponent.natAbs
decreasing_by simp only [greatestPower] at *; omega

/-- The greatest exponent that is taken for what it is, `2 ^ 31 - 1`. -/
def greatestExponent : Nat := 2147483647

/-- The size of a number. An exponent beyond `greatestExponent` makes it zero or too large. -/
def size? (n : Number) : Option Binary64 :=
  let (leading, unread) := absorb 0 n.whole
  let (significand, ignored) := absorb leading n.fraction
  let exponent : Int := unread.length - (n.fraction.length - ignored.length : Nat)
  let written := n.exponent.getD 0
  if written.natAbs ≤ greatestExponent then
    scaled? (Binary64.ofNat significand) (exponent + written)
  else if significand ≠ 0 && 0 < written then none
  else some Binary64.zero

def toBinary64? (n : Number) : Option Binary64 :=
  n.size?.map fun x => { x with negative := n.negative }

/-- The natural number below `2 ^ 64` that is written without sign, point and exponent. -/
def toNat? (n : Number) : Option Nat :=
  if n.negative || !n.fraction.isEmpty || n.exponent.isSome then none
  else
    let value := Nat.ofDigitChars 10 n.whole 0
    if value < UInt64.size then some value else none

end BenchLog.Json.Number
