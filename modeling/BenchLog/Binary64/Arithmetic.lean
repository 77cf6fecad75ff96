import BenchLog.Binary64.Basic

/-!
# Arithmetic on double-precision numbers

Each operation on finite numbers computes the exact result in units and rounds it once, to
nearest with ties to even. What is no number (the difference of two infinities, zero times an
infinity, a quotient of zeros or of infinities, the root of a negative number, anything with a
NaN) is `nan`.
-/

namespace BenchLog.Binary64

/-- The number nearest to a whole number of units; `zeroSign` is the sign of a zero. -/
def ofUnits (zeroSign : Bool) (n : Int) : Binary64 :=
  ofUnitRatio (if n = 0 then zeroSign else decide (n < 0)) n.natAbs 1

/-- The rounded sum. An exact zero is negative only when both terms are. -/
def add (x y : Binary64) : Binary64 :=
  if x.isNaN || y.isNaN then nan
  else if x.isInfinite then
    if y.isInfinite && x.negative != y.negative then nan else x
  else if y.isInfinite then y
  else ofUnits (x.negative && y.negative) (x.signedUnits + y.signedUnits)

def sub (x y : Binary64) : Binary64 := add x y.neg

def mul (x y : Binary64) : Binary64 :=
  let negative := x.negative != y.negative
  if x.isNaN || y.isNaN then nan
  else if x.isInfinite || y.isInfinite then
    if x.isZero || y.isZero then nan else { infinity with negative }
  else ofUnitRatio negative (x.units * y.units) unitsPerOne

def div (x y : Binary64) : Binary64 :=
  let negative := x.negative != y.negative
  if x.isNaN || y.isNaN then nan
  else if x.isInfinite then
    if y.isInfinite then nan else { infinity with negative }
  else if y.isInfinite then { zero with negative }
  else if y.isZero then
    if x.isZero then nan else { infinity with negative }
  else ofRatio negative x.units y.units

/-- The rounded square root; a zero is its own root. The root of `n` units is that of
`n * unitsPerOne`, in units, and so large that 53 bits end far above its fraction: any value
strictly between two whole numbers rounds as their midpoint does. -/
def sqrt (x : Binary64) : Binary64 :=
  if x.isNaN then nan
  else if x.isZero then x
  else if x.negative then nan
  else if x.isInfinite then x
  else
    let square := x.units * unitsPerOne
    let root := square.sqrt
    ofUnitRatio false (if root * root = square then 2 * root else 2 * root + 1) 2

/-- The sum from left to right. It starts from `-0`, the neutral element of `add`. -/
def sum (xs : List Binary64) : Binary64 := xs.foldl add negativeZero

/-- The greatest whole number at or below a finite number that is not negative. -/
def floor (x : Binary64) : Nat := x.units / unitsPerOne

/-- The least whole number at or above a finite number that is not negative. -/
def ceil (x : Binary64) : Nat := (x.units + unitsPerOne - 1) / unitsPerOne

end BenchLog.Binary64
