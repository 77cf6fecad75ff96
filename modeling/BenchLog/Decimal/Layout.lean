import BenchLog.Decimal.Shortest

/-!
# How decimals are written

Three ways to write a double-precision number, all with `.` as the point and `-` for a set sign
bit, zeros included:

* `positional`: the fewest digits that read back, never with an exponent;
* `readable`: the same, with `.0` added to whole numbers, so that the text always reads as a
  fraction;
* `fixed`: the exact value rounded to a set number of decimal places.

What is not finite is `NaN` (either sign), `inf` or `-inf`.
-/

namespace BenchLog.Decimal

/-- The digits before and after the point of a decimal written out in full: at least one before
it, and after it as many as a negative exponent asks for. -/
def expand (d : Decimal) : List Char × List Char :=
  let digits := Nat.toDigits 10 d.digits
  match d.exponent with
  | .ofNat zeros => (digits ++ List.replicate zeros '0', [])
  | .negSucc n =>
    let places := n + 1
    if places < digits.length then
      (digits.take (digits.length - places), digits.drop (digits.length - places))
    else (['0'], List.replicate (places - digits.length) '0' ++ digits)

/-- Whole part and fraction with a point between them, if there is a fraction. -/
def pointed : List Char × List Char → List Char
  | (whole, []) => whole
  | (whole, fraction) => whole ++ '.' :: fraction

/-- Whole part and fraction with a point between them; an empty fraction is written `0`. -/
def pointedAlways : List Char × List Char → List Char
  | (whole, []) => whole ++ ['.', '0']
  | (whole, fraction) => whole ++ '.' :: fraction

end BenchLog.Decimal

namespace BenchLog.Binary64

open Decimal (shortest expand pointed pointedAlways)

/-- Writes a number: its sign, and its magnitude as `finite` writes it. -/
def written (finite : Nat → List Char) (x : Binary64) : List Char :=
  let sign := if x.negative then ['-'] else []
  if x.isNaN then ['N', 'a', 'N']
  else if x.isInfinite then sign ++ ['i', 'n', 'f']
  else sign ++ finite x.magnitude

/-- The fewest digits that read back, written out in full. Of two such texts equally near to the
value the greater is taken. -/
def positional (x : Binary64) : List Char :=
  x.written fun m => pointed (expand (shortest .up m))

/-- As `positional`, with `.0` added to whole numbers. -/
def readable (x : Binary64) : List Char :=
  x.written fun m => pointedAlways (expand (shortest .up m))

/-- The exact value rounded to so many decimal places, a half going to the even neighbour. -/
def fixed (places : Nat) (x : Binary64) : List Char :=
  x.written fun m =>
    pointed (expand ⟨roundDiv (unitsOf m * Nat.pow 10 places) unitsPerOne, -(places : Int)⟩)

end BenchLog.Binary64
