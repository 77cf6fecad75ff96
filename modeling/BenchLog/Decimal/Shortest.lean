import BenchLog.Decimal.Basic

/-!
# The shortest decimal that reads back

`shortest tie m` is the decimal with the fewest digits among those that round to the finite
magnitude `m`, and of these the nearest to its value. The decimals that round to `m` lie between
the midpoints with the two neighbouring magnitudes, ends included exactly when `m` is even.

The search goes from the coarsest decimal grid to finer ones. If a point of a grid rounds to `m`,
so does one of the two points around the value, hence only these are tried; the first grid with a
hit has the fewest digits. Two hits equally near are settled by `tie`.
-/

namespace BenchLog

/-- Which of two equally near decimals is chosen. -/
inductive Decimal.Tie where
  /-- The greater one. -/
  | up
  /-- The one whose last digit is even. -/
  | even
  deriving DecidableEq, Repr

namespace Decimal

open Binary64 (unitsOf unitsPerOne)

/-- Twice the midpoint, in units, of a magnitude and the one below it. -/
def lowerEnd (magnitude : Nat) : Nat := unitsOf (magnitude - 1) + unitsOf magnitude

/-- Twice the midpoint, in units, of a magnitude and the one above it. -/
def upperEnd (magnitude : Nat) : Nat := unitsOf magnitude + unitsOf (magnitude + 1)

/-- Does the decimal round to the positive magnitude? -/
def roundsTo (d : Decimal) (magnitude : Nat) : Bool :=
  let low := lowerEnd magnitude * d.denominator
  let high := upperEnd magnitude * d.denominator
  let twice := 2 * unitsPerOne * d.numerator
  if magnitude % 2 = 0 then low ≤ twice && twice ≤ high else low < twice && twice < high

/-- The least `k` such that so many units are below `10 ^ k`. -/
def scale (units : Nat) : Int :=
  if unitsPerOne ≤ units then (Nat.toDigits 10 (units / unitsPerOne)).length
  else 1 - (Nat.toDigits 10 ((unitsPerOne - 1) / units)).length

/-- So many units, as a multiple of `10 ^ exponent`: numerator and denominator. -/
def onGrid (units : Nat) (exponent : Int) : Nat × Nat :=
  (units * Nat.pow 10 (-exponent).toNat, unitsPerOne * Nat.pow 10 exponent.toNat)

/-- The multiple of `10 ^ exponent` nearest to the magnitude's value, of the two around it that
round to the magnitude. -/
def nearestOnGrid? (tie : Tie) (magnitude : Nat) (exponent : Int) : Option Decimal :=
  let (num, den) := onGrid (unitsOf magnitude) exponent
  let below : Decimal := ⟨num / den, exponent⟩
  let above : Decimal := ⟨num / den + 1, exponent⟩
  match below.roundsTo magnitude, above.roundsTo magnitude with
  | false, false => none
  | true, false => some below
  | false, true => some above
  | true, true =>
    let remainder := 2 * (num % den)
    if remainder < den then some below
    else if den < remainder then some above
    else match tie with
      | .up => some above
      | .even => if below.digits % 2 = 0 then some below else some above

/-- The exact value of so many units, as a decimal: a unit is `5 ^ 1074 * 10 ^ -1074`. -/
def exact (units : Nat) : Decimal := ⟨units * Nat.pow 5 1074, -1074⟩

/-- The shortest decimal that rounds to the magnitude. Seventeen digits always suffice, so the
exact value at the end is never reached. -/
def shortest (tie : Tie) (magnitude : Nat) : Decimal :=
  if magnitude = 0 then ⟨0, 0⟩
  else
    let start := scale (unitsOf magnitude)
    ((List.range 18).findSome? fun (n : Nat) => nearestOnGrid? tie magnitude (start - n)).getD
      (exact (unitsOf magnitude))

end Decimal

end BenchLog
