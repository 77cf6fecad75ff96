import BenchLog.Binary64.Arithmetic

/-!
# Decimal numbers

A `Decimal` is `digits * 10 ^ exponent`, with no sign. `toBinary64` gives the double-precision
number nearest to it, whatever the size of the exponent: one that is far out of range is settled
before any power of ten is computed.
-/

namespace BenchLog

/-- The number `digits * 10 ^ exponent`. -/
structure Decimal where
  digits : Nat
  exponent : Int
  deriving DecidableEq, Repr

namespace Decimal

/-- The value is `numerator / denominator`. -/
def numerator (d : Decimal) : Nat := d.digits * Nat.pow 10 d.exponent.toNat

def denominator (d : Decimal) : Nat := Nat.pow 10 (-d.exponent).toNat

/-- Is the number at least `10 ^ 310`, by its exponent alone? Every double-precision number is
smaller. -/
def isHuge (d : Decimal) : Bool := d.digits ≠ 0 && 310 ≤ d.exponent

/-- Is the number below half of the least positive double-precision number, by the lengths of its
digits and exponent alone? With `b` binary digits it is below `2 ^ (b + 3 * exponent)`. -/
def isTiny (d : Decimal) : Bool :=
  d.digits = 0 || (d.exponent < 0 && (d.digits.log2 : Int) + 1 + 3 * d.exponent ≤ -1075)

/-- The number of the given sign nearest to the decimal, a tie going to the even pattern. -/
def toBinary64 (negative : Bool) (d : Decimal) : Binary64 :=
  if d.isTiny then { Binary64.zero with negative }
  else if d.isHuge then { Binary64.infinity with negative }
  else Binary64.ofRatio negative d.numerator d.denominator

end Decimal

end BenchLog
