import BenchLog.Proofs.Binary64.Whole
import BenchLog.Proofs.Decimal.Shortest
import Mathlib.Algebra.Order.Field.Rat
import Mathlib.Tactic.FieldSimp
import Mathlib.Tactic.Positivity

/-!
# Decimals as rational numbers

A decimal has a rational value (`Decimal.value`), and to which double it rounds is a matter of this
value only (`toBinary64_eq_iff`): the values that round to a magnitude lie without gaps between two
midpoints (`Binary64.RoundsTo.between`). Huge and tiny decimals, which `toBinary64` settles by their
exponents, are no exception (`toBinary64_eq_ofRatio`).
-/

namespace BenchLog

open Decimal (lowerEnd upperEnd)

namespace Binary64

theorem cast_unitsPerOne_pos : (0 : ℚ) < unitsPerOne := Nat.cast_pos.2 unitsPerOne_pos

/-- So many units lie between the midpoints of the magnitude with its two neighbours, and on one of
them only if the magnitude is even. -/
structure RoundsTo (units : ℚ) (magnitude : Nat) : Prop where
  low : (lowerEnd magnitude : ℚ) ≤ 2 * units
  high : 2 * units ≤ upperEnd magnitude
  odd : magnitude % 2 = 1 → (lowerEnd magnitude : ℚ) ≠ 2 * units ∧ 2 * units ≠ upperEnd magnitude

theorem isNearest_iff {num den magnitude : Nat} (pos : 0 < den) :
    IsNearest num den magnitude ↔ RoundsTo (num / den : ℚ) magnitude := by
  have pos' : (0 : ℚ) < den := Nat.cast_pos.2 pos
  have twice : 2 * (num / den : ℚ) = 2 * num / den := by ring
  have low : lowerEnd magnitude * den ≤ 2 * num ↔ (lowerEnd magnitude : ℚ) ≤ 2 * num / den := by
    rw [le_div_iff₀ pos']
    exact_mod_cast Iff.rfl
  have high : 2 * num ≤ upperEnd magnitude * den ↔ 2 * num / den ≤ (upperEnd magnitude : ℚ) := by
    rw [div_le_iff₀ pos']
    exact_mod_cast Iff.rfl
  have low' : lowerEnd magnitude * den = 2 * num ↔ (lowerEnd magnitude : ℚ) = 2 * num / den := by
    rw [eq_div_iff pos'.ne']
    exact_mod_cast Iff.rfl
  have high' : 2 * num = upperEnd magnitude * den ↔ 2 * num / den = (upperEnd magnitude : ℚ) := by
    rw [div_eq_iff pos'.ne']
    exact_mod_cast Iff.rfl
  constructor
  · rintro ⟨h, h', odd⟩
    rw [ne_eq, ne_eq, low', high'] at odd
    exact ⟨twice ▸ low.1 h, twice ▸ high.1 h', twice ▸ odd⟩
  · rintro ⟨h, h', odd⟩
    rw [twice] at h h' odd
    rw [ne_eq, ne_eq, ← low', ← high'] at odd
    exact ⟨low.2 h, high.2 h', odd⟩

theorem roundsTo_unitsOf (magnitude : Nat) : RoundsTo (unitsOf magnitude) magnitude := by
  have nearest := (isNearest_iff Nat.one_pos).1 (isNearest_unitsOf Nat.one_pos magnitude)
  simpa using nearest

theorem roundsTo_of_lt {units : ℚ} {magnitude : Nat} (low : (lowerEnd magnitude : ℚ) < 2 * units)
    (high : 2 * units < upperEnd magnitude) : RoundsTo units magnitude :=
  ⟨low.le, high.le, fun _ => ⟨low.ne, high.ne⟩⟩

/-- What lies between two numbers that round to a magnitude rounds to it as well. -/
theorem RoundsTo.between {a b c : ℚ} {magnitude : Nat} (below : RoundsTo a magnitude)
    (above : RoundsTo b magnitude) (le : a ≤ c) (le' : c ≤ b) : RoundsTo c magnitude where
  low := by linarith [below.low]
  high := by linarith [above.high]
  odd h := by
    have low := lt_of_le_of_ne below.low (below.odd h).1
    have high := lt_of_le_of_ne above.high (above.odd h).2
    constructor
    · intro same
      linarith
    · intro same
      linarith

/-- What is no less than a value is not rounded below it. -/
theorem le_nearestMagnitude {num den magnitude : Nat} (pos : 0 < den)
    (le : unitsOf magnitude * den ≤ num) :
    min magnitude infinityMagnitude ≤ nearestMagnitude num den := by
  obtain ⟨nearest, spec, value⟩ := exists_isNearest num pos
  rw [value]
  refine min_le_min_right _ (Nat.not_lt.1 fun below => ?_)
  have high := spec.high
  have beyond := Nat.mul_lt_mul_of_pos_right
    (Nat.lt_of_le_of_lt (upperEnd_le_lowerEnd below)
      (lowerEnd_lt (Nat.lt_of_le_of_lt (Nat.zero_le _) below))) pos
  rw [Nat.mul_assoc] at beyond
  omega

end Binary64

namespace Decimal

open Binary64 (unitsOf unitsPerOne RoundsTo infinityMagnitude)

/-- The rational number that a decimal stands for. -/
def value (d : Decimal) : ℚ := d.digits * (10 : ℚ) ^ d.exponent

variable {d : Decimal} {magnitude : Nat} {negative : Bool}

theorem denominator_pos (d : Decimal) : 0 < d.denominator := Nat.pow_pos (by decide)

theorem value_eq (d : Decimal) : d.value = d.numerator / d.denominator := by
  obtain ⟨digits, exponent⟩ := d
  simp only [value, numerator, denominator, Nat.pow_eq]
  obtain ⟨n, rfl | rfl⟩ := exponent.eq_nat_or_neg
  · simp
  · simp [div_eq_mul_inv]

theorem roundsTo_iff_value :
    d.roundsTo magnitude = true ↔ RoundsTo (d.value * unitsPerOne) magnitude := by
  rw [roundsTo_iff, Binary64.isNearest_iff d.denominator_pos, value_eq]
  push_cast
  rw [div_mul_eq_mul_div]

/-! ## Rounding a decimal -/

theorem nearestMagnitude_of_isTiny (tiny : d.isTiny = true) :
    Binary64.nearestMagnitude (d.numerator * unitsPerOne) d.denominator = 0 := by
  obtain ⟨digits, exponent⟩ := d
  apply (Binary64.nearestMagnitude_eq_iff (denominator_pos _) (by decide)).2
  suffices below :
      2 * (numerator ⟨digits, exponent⟩ * unitsPerOne) ≤ denominator ⟨digits, exponent⟩ by
    refine ⟨by simp [lowerEnd], ?_, by simp⟩
    calc 2 * (numerator ⟨digits, exponent⟩ * unitsPerOne) ≤ denominator ⟨digits, exponent⟩ := below
      _ = upperEnd 0 * denominator ⟨digits, exponent⟩ := by
        rw [show upperEnd 0 = 1 by decide, Nat.one_mul]
  simp only [isTiny, Bool.or_eq_true, Bool.and_eq_true, decide_eq_true_eq] at tiny
  by_cases zero : digits = 0
  · simp [numerator, zero]
  · obtain ⟨negative, small⟩ := tiny.resolve_left zero
    obtain ⟨n, rfl⟩ : ∃ n : Nat, exponent = -n := ⟨exponent.natAbs, by omega⟩
    have tens : Nat.pow 8 n ≤ Nat.pow 10 n := Nat.pow_le_pow_left (by decide) n
    have eights : Nat.pow 8 n = Nat.pow 2 (3 * n) := (Nat.pow_mul 2 3 n).symm
    simp only [numerator, denominator, Int.neg_neg, Int.toNat_natCast,
      show (-(n : Int)).toNat = 0 by omega, show Nat.pow 10 0 = 1 from rfl, Nat.mul_one]
    calc 2 * (digits * unitsPerOne)
        ≤ 2 * (Nat.pow 2 (digits.log2 + 1) * unitsPerOne) :=
          Nat.mul_le_mul_left 2 (Nat.mul_le_mul_right _ (Nat.le_of_lt Nat.lt_log2_self))
      _ = Nat.pow 2 (digits.log2 + 1 + 1074 + 1) := by
        rw [Binary64.two_pow_succ (digits.log2 + 1 + 1074), Binary64.two_pow_add_1074]
      _ ≤ Nat.pow 2 (3 * n) := Nat.pow_le_pow_right (by decide) (by omega)
      _ ≤ Nat.pow 10 n := eights ▸ tens

theorem nearestMagnitude_of_isHuge (huge : d.isHuge = true) :
    Binary64.nearestMagnitude (d.numerator * unitsPerOne) d.denominator = infinityMagnitude := by
  obtain ⟨digits, exponent⟩ := d
  simp only [isHuge, Bool.and_eq_true, decide_eq_true_eq] at huge
  obtain ⟨nonzero, large⟩ := huge
  obtain ⟨n, rfl⟩ : ∃ n : Nat, exponent = n := ⟨exponent.toNat, by omega⟩
  obtain ⟨least, le, beyond⟩ : ∃ least ≤ 310,
      unitsOf infinityMagnitude ≤ Nat.pow 10 least * unitsPerOne :=
    ⟨310, Nat.le_refl 310, by decide +kernel⟩
  have above : unitsOf infinityMagnitude * denominator ⟨digits, n⟩ ≤
      numerator ⟨digits, n⟩ * unitsPerOne := by
    simp only [numerator, denominator, Int.toNat_natCast,
      show (-(n : Int)).toNat = 0 by omega, show Nat.pow 10 0 = 1 from rfl, Nat.mul_one]
    calc unitsOf infinityMagnitude ≤ Nat.pow 10 least * unitsPerOne := beyond
      _ ≤ Nat.pow 10 n * unitsPerOne :=
        Nat.mul_le_mul_right _ (Nat.pow_le_pow_right (by decide) (by omega))
      _ ≤ digits * Nat.pow 10 n * unitsPerOne :=
        Nat.mul_le_mul_right _ (Nat.le_mul_of_pos_left _ (Nat.pos_of_ne_zero nonzero))
  have least := Binary64.le_nearestMagnitude (denominator_pos ⟨digits, n⟩) above
  rw [Nat.min_self] at least
  exact Nat.le_antisymm (Nat.min_le_right _ _) least

/-- The decimals that are settled by their exponents are rounded like all others. -/
theorem toBinary64_eq_ofRatio (negative : Bool) (d : Decimal) :
    d.toBinary64 negative = Binary64.ofRatio negative d.numerator d.denominator := by
  unfold toBinary64
  split
  · next tiny =>
    simp only [Binary64.ofRatio, Binary64.ofUnitRatio, nearestMagnitude_of_isTiny tiny]
    rfl
  · split
    · next huge =>
      simp only [Binary64.ofRatio, Binary64.ofUnitRatio, nearestMagnitude_of_isHuge huge]
      rfl
    · rfl

/-- A decimal rounds to a finite double of the same sign exactly if its value does. -/
theorem toBinary64_eq_iff {x : Binary64} (finite : x.magnitude < infinityMagnitude) :
    d.toBinary64 negative = x ↔
      negative = x.negative ∧ RoundsTo (d.value * unitsPerOne) x.magnitude := by
  rw [toBinary64_eq_ofRatio, ← roundsTo_iff_value, roundsTo_iff,
    ← Binary64.nearestMagnitude_eq_iff d.denominator_pos finite]
  obtain ⟨sign, magnitude, bound⟩ := x
  simp [Binary64.ofRatio, Binary64.ofUnitRatio]

end Decimal

end BenchLog
