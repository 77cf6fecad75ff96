import BenchLog.Proofs.Binary64.Whole
import BenchLog.Proofs.Decimal.Shortest
import BenchLog.Proofs.Json.Numbers

/-!
# Doubles in JSON

A number stands for a decimal, its digits times a power of ten (`Number.decimal`), and is *short* if
both are doubles without rounding (`Number.IsShort`). A short number is read with a single rounding
(`size?_of_roundsTo`), so a double that is written short comes back
(`toBinary64?_of_isShort`). What is not short is rounded more than once, and can come back as a
neighbour.
-/

namespace BenchLog.Json.Number

open Binary64 (binade infinityMagnitude unitsPerOne IsNearest)

/-- The decimal that the number stands for, its sign apart. -/
def decimal (n : Number) : Decimal := .ofParts n.whole n.fraction (n.exponent.getD 0)

/-- The digits fit the significand of a double, and so do those of the power of ten. -/
def IsShort (n : Number) : Prop := n.decimal.digits ≤ 2 * binade ∧ n.decimal.exponent.natAbs ≤ 22

instance (n : Number) : Decidable n.IsShort := inferInstanceAs (Decidable (_ ∧ _))

/-! ## Reading -/

theorem le_ofDigitChars (digits : List Char) (significand : Nat) :
    significand ≤ Nat.ofDigitChars 10 digits significand := by
  induction digits generalizing significand with
  | nil => rw [Nat.ofDigitChars_nil]
  | cons digit digits ih =>
    rw [Nat.ofDigitChars_cons]
    exact Nat.le_trans (by omega) (ih _)

/-- Digits are absorbed as long as their value fits 64 bits. -/
theorem absorb_of_lt {digits : List Char} {significand : Nat}
    (fits : Nat.ofDigitChars 10 digits significand < UInt64.size) :
    absorb significand digits = (Nat.ofDigitChars 10 digits significand, []) := by
  induction digits generalizing significand with
  | nil => rfl
  | cons digit digits ih =>
    rw [Nat.ofDigitChars_cons, show '0'.toNat = 48 from rfl] at fits ⊢
    have small := Nat.lt_of_le_of_lt (le_ofDigitChars digits _) fits
    rw [absorb, if_pos small]
    exact ih fits

/-- A number whose digits fit 64 bits is these digits, scaled. -/
theorem size?_of_lt {n : Number} (fits : n.decimal.digits < UInt64.size)
    (written : (n.exponent.getD 0).natAbs ≤ greatestExponent) :
    n.size? = scaled? (.ofNat n.decimal.digits) n.decimal.exponent := by
  rw [decimal, Decimal.ofParts, digitsValue, Nat.ofDigitChars_append] at *
  have whole := absorb_of_lt (Nat.lt_of_le_of_lt (le_ofDigitChars n.fraction _) fits)
  rw [size?, whole]
  dsimp only
  rw [absorb_of_lt fits, if_pos written]
  dsimp only [List.length_nil]
  congr 1
  omega

/-! ## Powers of ten -/

theorem powerOfTen_spec {n : Nat} (small : n ≤ 22) :
    (powerOfTen n).magnitude < infinityMagnitude ∧
      (powerOfTen n).units = Nat.pow 10 n * unitsPerOne := by
  have fives : Nat.pow 5 n ≤ 2 * binade :=
    Nat.le_trans (Nat.pow_le_pow_right (by decide) small) (by decide)
  have tens : Nat.pow 5 n * Nat.pow 2 n = Nat.pow 10 n := (Nat.mul_pow 5 2 n).symm
  rw [powerOfTen, ← tens]
  exact Binary64.units_ofNat fives (by omega)

theorem ofUnitRatio_eq {x : Binary64} {num den : Nat}
    (nearest : Binary64.nearestMagnitude num den = x.magnitude) :
    Binary64.ofUnitRatio x.negative num den = x := by
  obtain ⟨negative, magnitude, bound⟩ := x
  subst nearest
  rfl

section Combine

variable {x : Binary64} {digits power : Nat} (positive : x.negative = false)
  (small : digits ≤ 2 * binade) (near : power ≤ 22)

include positive small near

theorem mul_powerOfTen (nearest : Binary64.nearestMagnitude
      (digits * Nat.pow 10 power * unitsPerOne) 1 = x.magnitude) :
    (Binary64.ofNat digits).mul (powerOfTen power) = x := by
  obtain ⟨digits_finite, digits_units⟩ := Binary64.units_count small
  obtain ⟨power_finite, power_units⟩ := powerOfTen_spec near
  have product : digits * unitsPerOne * (Nat.pow 10 power * unitsPerOne) =
      digits * Nat.pow 10 power * unitsPerOne * unitsPerOne := by ring
  rw [← Binary64.nearestMagnitude_mul Nat.one_pos Binary64.unitsPerOne_pos, Nat.one_mul] at nearest
  rw [Binary64.mul_of_finite (Binary64.isFinite_iff.1 digits_finite) power_finite, digits_units, power_units, product,
    ← ofUnitRatio_eq nearest, positive]
  rfl

theorem div_powerOfTen (nearest : Binary64.nearestMagnitude
      (digits * unitsPerOne) (Nat.pow 10 power) = x.magnitude) :
    (Binary64.ofNat digits).div (powerOfTen power) = x := by
  obtain ⟨digits_finite, digits_units⟩ := Binary64.units_count small
  obtain ⟨power_finite, power_units⟩ := powerOfTen_spec near
  have ten_pos : 0 < Nat.pow 10 power := Nat.pow_pos (by decide)
  have nonzero : (powerOfTen power).isZero = false := by
    apply decide_eq_false
    intro zero
    rw [Binary64.units, zero, Binary64.unitsOf_zero] at power_units
    have := Nat.mul_pos ten_pos Binary64.unitsPerOne_pos
    omega
  rw [← Binary64.nearestMagnitude_mul ten_pos Binary64.unitsPerOne_pos] at nearest
  rw [Binary64.div_of_finite (Binary64.isFinite_iff.1 digits_finite) power_finite nonzero, digits_units, power_units,
    ← ofUnitRatio_eq nearest, positive]
  rfl

end Combine

/-- Digits and a power of ten that are doubles are combined with a single rounding. -/
theorem scaled?_of_roundsTo {d : Decimal} {x : Binary64} (positive : x.negative = false)
    (finite : x.magnitude < infinityMagnitude) (rounds : d.roundsTo x.magnitude = true)
    (small : d.digits ≤ 2 * binade) (near : d.exponent.natAbs ≤ 22) :
    scaled? (.ofNat d.digits) d.exponent = some x := by
  have denominator_pos : 0 < d.denominator := Nat.pow_pos (by decide)
  have nearest := (Binary64.nearestMagnitude_eq_iff denominator_pos finite).2
    ((Decimal.roundsTo_iff d x.magnitude).1 rounds)
  rw [Decimal.numerator, Decimal.denominator] at nearest
  rw [scaled?, if_pos (Nat.le_trans near (by decide))]
  by_cases up : 0 ≤ d.exponent
  · rw [show d.exponent.toNat = d.exponent.natAbs by omega,
      show (-d.exponent).toNat = 0 by omega] at nearest
    rw [if_pos up]
    dsimp only
    rw [mul_powerOfTen positive small near nearest, Binary64.isInfinite_of_finite finite]
    rfl
  · rw [show d.exponent.toNat = 0 by omega,
      show (-d.exponent).toNat = d.exponent.natAbs by omega, show Nat.pow 10 0 = 1 from rfl,
      Nat.mul_one] at nearest
    rw [if_neg up, div_powerOfTen positive small near nearest]

/-! ## Writing -/

theorem decimal_of_not_isPlain (negative : Bool) {d : Decimal} (scientific : ¬isPlain d = true) :
    (ofDecimal negative d).decimal = d := by
  obtain ⟨digits, exponent⟩ := d
  have positive := Nat.length_toDigits_pos (b := 10) (n := digits)
  unfold ofDecimal decimal Decimal.ofParts
  rw [if_neg scientific]
  simp only [List.take_append_drop, digitsValue_toDigits, Option.getD_some, leadingExponent,
    List.length_drop]
  congr 1
  omega

/-- What is written stands for the decimal, as it is or with the zeros of its exponent and one more
among the digits. -/
theorem decimal_ofDecimal (negative : Bool) (d : Decimal) :
    (ofDecimal negative d).decimal = d ∨ ∃ power : Nat, d.exponent = power ∧
      (ofDecimal negative d).decimal = ⟨d.digits * Nat.pow 10 (power + 1), -1⟩ := by
  by_cases plain : isPlain d = true
  · unfold ofDecimal decimal
    rw [if_pos plain]
    exact d.ofParts_pointParts
  · exact Or.inl (decimal_of_not_isPlain negative plain)

theorem roundsTo_decimal_ofDecimal (negative : Bool) {d : Decimal} {magnitude : Nat}
    (rounds : d.roundsTo magnitude = true) :
    (ofDecimal negative d).decimal.roundsTo magnitude = true := by
  rcases decimal_ofDecimal negative d with same | ⟨power, exponent, zeros⟩
  · rwa [same]
  · have numerator : d.digits * Nat.pow 10 (power + 1) * 1 * unitsPerOne =
        d.digits * Nat.pow 10 power * unitsPerOne * 10 := by
      rw [show Nat.pow 10 (power + 1) = Nat.pow 10 power * 10 from Nat.pow_succ ..]
      ring
    rw [Decimal.roundsTo_iff, ← Binary64.isNearest_mul_iff (show 0 < 10 by decide),
      Decimal.numerator, Decimal.denominator, exponent, Int.toNat_natCast, ← numerator,
      show (-(power : Int)).toNat = 0 by omega] at rounds
    rw [zeros, Decimal.roundsTo_iff]
    exact rounds

/-- An exponent is written only for a power of ten that stands in the digits it goes with. -/
theorem exponent_of_isShort (negative : Bool) {d : Decimal}
    (short : (ofDecimal negative d).IsShort) :
    ((ofDecimal negative d).exponent.getD 0).natAbs ≤ greatestExponent := by
  by_cases plain : isPlain d = true
  · rw [ofDecimal, if_pos plain]
    exact Nat.zero_le _
  · rw [IsShort, decimal_of_not_isPlain negative plain] at short
    have length : (Nat.toDigits 10 d.digits).length ≤ 16 :=
      (Nat.length_toDigits_le_iff (by decide) (by decide)).2
        (Nat.lt_of_le_of_lt short.1 (by decide))
    have := short.2
    rw [ofDecimal, if_neg plain]
    dsimp only [Option.getD_some, leadingExponent, greatestExponent]
    omega

/-- A double that is written short comes back. -/
theorem toBinary64?_of_isShort {x : Binary64} {n : Number} (written : ofBinary64? x = some n)
    (short : n.IsShort) : n.toBinary64? = some x := by
  unfold ofBinary64? at written
  split at written
  · next finite =>
    obtain rfl := Option.some.inj written
    have finite := Binary64.isFinite_iff.1 finite
    have rounds := roundsTo_decimal_ofDecimal x.negative
      (Decimal.roundsTo_shortest .even x.magnitude)
    have fits : 2 * binade < UInt64.size := by decide
    have sign : (ofDecimal x.negative (.shortest .even x.magnitude)).negative = x.negative := by
      unfold ofDecimal
      split <;> rfl
    rw [toBinary64?, size?_of_lt (Nat.lt_of_le_of_lt short.1 fits)
      (exponent_of_isShort x.negative short),
      scaled?_of_roundsTo (x := x.abs) rfl finite rounds short.1 short.2, sign]
    rfl
  · cases written

end BenchLog.Json.Number
