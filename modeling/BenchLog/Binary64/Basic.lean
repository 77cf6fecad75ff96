import BenchLog.Rounding

/-!
# Double-precision numbers

A `Binary64` is a bit pattern: the sign bit, and the 63 bits below it read as one natural number,
the `magnitude`. Patterns below `infinityMagnitude` are finite numbers, that pattern is an
infinity, those above it are NaNs.

Every finite number is a whole multiple of the least positive one, `2 ^ -1074`, and `units`
counts the multiples. So exact arithmetic on finite numbers is arithmetic on whole numbers, and
`nearestMagnitude` is the one place where a result is rounded: it gives the pattern whose value
is nearest to a quotient of naturals, a tie going to the even pattern, and an infinity from
halfway between the greatest finite number and `2 ^ 1024` on.
-/

namespace BenchLog

/-- Below the sign bit are 63 bits: this is `2 ^ 63`. -/
def Binary64.magnitudeLimit : Nat := Nat.pow 2 63

/-- How many magnitudes share an exponent, which is followed by 52 bits of fraction. -/
def Binary64.binade : Nat := Nat.pow 2 52

/-- A double-precision number, as its bit pattern. -/
structure Binary64 where
  negative : Bool
  /-- The 63 bits below the sign bit: eleven of exponent, then 52 of fraction. -/
  magnitude : Nat
  magnitude_lt : magnitude < Binary64.magnitudeLimit := by decide
  deriving DecidableEq

namespace Binary64

/-- The magnitude of an infinity: all exponent bits set and no fraction bit. -/
def infinityMagnitude : Nat := 2047 * binade

/-- The units, of `2 ^ -1074` each, that make up the number one. -/
def unitsPerOne : Nat := Nat.pow 2 1074

def zero : Binary64 := ⟨false, 0, by decide⟩
def negativeZero : Binary64 := ⟨true, 0, by decide⟩
def infinity : Binary64 := ⟨false, infinityMagnitude, by decide⟩
def negativeInfinity : Binary64 := ⟨true, infinityMagnitude, by decide⟩
/-- The quiet NaN with a clear sign bit and no payload. -/
def nan : Binary64 := ⟨false, infinityMagnitude + binade / 2, by decide⟩

instance : Inhabited Binary64 := ⟨zero⟩

/-! ## Classes of patterns -/

def isNaN (x : Binary64) : Bool := infinityMagnitude < x.magnitude
def isInfinite (x : Binary64) : Bool := x.magnitude = infinityMagnitude
def isFinite (x : Binary64) : Bool := x.magnitude < infinityMagnitude
/-- Both zeros are zero. -/
def isZero (x : Binary64) : Bool := x.magnitude = 0

/-! ## Units -/

/-- The value of a finite magnitude, in units. Below `2 ^ 53` a magnitude is its own value; from
there on each step of the exponent doubles the distance between neighbours. -/
def unitsOf (magnitude : Nat) : Nat :=
  if magnitude < binade then magnitude
  else (binade + magnitude % binade) * Nat.pow 2 (magnitude / binade - 1)

/-- The absolute value of a finite number, in units. -/
def units (x : Binary64) : Nat := unitsOf x.magnitude

/-- The value of a finite number, in units. -/
def signedUnits (x : Binary64) : Int := if x.negative then -(x.units : Int) else x.units

/-- The magnitude whose value in units is nearest to `num / den`, a tie going to the even
magnitude. A quotient of `2 ^ 53` or more is first scaled down by the power of two that leaves 53
significant bits; a carry out of them runs into the exponent bits, where it belongs. -/
def nearestMagnitude (num den : Nat) : Nat :=
  let shift := (num / den).log2 - 52
  min (shift * binade + roundDiv num (den * Nat.pow 2 shift)) infinityMagnitude

theorem nearestMagnitude_lt (num den : Nat) : nearestMagnitude num den < magnitudeLimit :=
  Nat.lt_of_le_of_lt (Nat.min_le_right _ _) (by decide)

/-- The number of the given sign whose absolute value is nearest to `num / den` units. -/
def ofUnitRatio (negative : Bool) (num den : Nat) : Binary64 :=
  ⟨negative, nearestMagnitude num den, nearestMagnitude_lt num den⟩

/-- The number of the given sign whose absolute value is nearest to `num / den`. -/
def ofRatio (negative : Bool) (num den : Nat) : Binary64 :=
  ofUnitRatio negative (num * unitsPerOne) den

/-- The number nearest to a whole number; zero is positive. -/
def ofInt (n : Int) : Binary64 := ofRatio (decide (n < 0)) n.natAbs 1

def ofNat (n : Nat) : Binary64 := ofRatio false n 1

/-! ## Sign -/

def neg (x : Binary64) : Binary64 := { x with negative := !x.negative }
def abs (x : Binary64) : Binary64 := { x with negative := false }

end Binary64

end BenchLog
