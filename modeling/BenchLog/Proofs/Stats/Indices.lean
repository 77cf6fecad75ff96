import BenchLog.Proofs.Stats.Percentiles
import BenchLog.Proofs.Stats.WholeSamples
import Mathlib.Algebra.Order.Floor.Semifield
import Mathlib.Data.Rat.Floor

/-!
# Indices of percentiles

The rank of a percentile is rounded twice (`isRounding_percentileRank`), and neither rounding carries it
beyond the greatest index. So the indices around it, its floor and its ceiling (`floor_eq`, `ceil_eq`), are
those of samples and at most one apart. There is a percentile of all samples but none, for exactly the
numbers from 0 to 100 (`percentile_in_list`).
-/

namespace BenchLog

open Binary64

namespace Binary64

/-! ## Products, floors and ceilings -/

/-- A product that is finite is rounded to the nearest double. -/
theorem isRounding_mul {x y : Binary64} (x_finite : x.isFinite = true) (y_finite : y.isFinite = true)
    (finite : (mul x y).isFinite = true) : IsRounding (x.value * y.value) (mul x y) := by
  have product : mul x y = ofRatio (x.negative != y.negative) (x.units * y.units)
      (unitsPerOne * unitsPerOne) := by
    rw [mul_of_finite (isFinite_iff.1 x_finite) (isFinite_iff.1 y_finite), ofRatio]
    simp only [ofUnitRatio, nearestMagnitude_mul unitsPerOne_pos unitsPerOne_pos]
  have exact : x.value * y.value = (signed (x.negative != y.negative) (x.units * y.units) : ℚ) /
      (unitsPerOne * unitsPerOne : Nat) := by
    rw [signed_bne_mul, value, value, div_mul_div_comm]
    push_cast
    rfl
  rw [product] at finite ⊢
  rw [exact]
  exact isRounding_ofRatio _ (Nat.mul_pos unitsPerOne_pos unitsPerOne_pos) finite

section Whole

variable {x : Binary64} (nonneg : 0 ≤ x.signedUnits)

include nonneg

theorem value_eq_units : x.value = (x.units : ℚ) / unitsPerOne := by
  have size := natAbs_signedUnits x
  have units : x.signedUnits = x.units := by omega
  rw [value, units, Int.cast_natCast]

theorem floor_eq : x.floor = ⌊x.value⌋₊ := by
  rw [value_eq_units nonneg, Nat.floor_div_eq_div]
  rfl

theorem ceil_eq : x.ceil = ⌈x.value⌉₊ := by
  refine eq_of_forall_ge_iff fun n => ?_
  have pos := unitsPerOne_pos
  rw [ceil, value_eq_units nonneg]
  generalize unitsPerOne = one at pos ⊢
  rw [Nat.ceil_le, div_le_iff₀ (Nat.cast_pos.2 pos), Nat.div_le_iff_le_mul_add_pred pos, Nat.mul_comm]
  norm_cast
  omega

end Whole

end Binary64

/-! ## Ranks -/

/-- A number from 0 to 100. -/
structure IsPercent (p : Binary64) : Prop where
  finite : p.isFinite = true
  nonneg : 0 ≤ p.value
  le_hundred : p.value ≤ 100

theorem isPercentage_iff {p : Binary64} : isPercentage p = true ↔ IsPercent p := by
  have hundred_value : hundred.value = 100 := by
    rw [hundred, value_count (by decide), Nat.cast_ofNat]
  have order {p : Binary64} (number : p.isNaN = false) :
      isPercentage p = true ↔ 0 ≤ p.value ∧ p.value ≤ 100 := by
    rw [isPercentage, Bool.and_eq_true, le_iff_value (by decide) number,
      le_iff_value number (isNaN_of_isFinite hundred_spec.1), value_zero, hundred_value]
  constructor
  · intro percentage
    have finite := (percentage_spec percentage).1
    obtain ⟨nonneg, le_hundred⟩ := (order (isNaN_of_isFinite finite)).1 percentage
    exact ⟨finite, nonneg, le_hundred⟩
  · rintro ⟨finite, nonneg, le_hundred⟩
    exact (order (isNaN_of_isFinite finite)).2 ⟨nonneg, le_hundred⟩

/-- The rank is rounded in the quotient by 100 and in the product with the greatest index. -/
theorem isRounding_percentileRank {count : Nat} {p : Binary64} (few : count ≤ 2 ^ 53)
    (percentage : isPercentage p = true) :
    ∃ quotient, IsRounding (p.value / 100) quotient ∧
      IsRounding (quotient.value * (count - 1 : Nat)) (percentileRank count p) := by
  have finite := (percentage_spec percentage).1
  have rounded := isRounding_div_count finite (show 0 < 100 by decide) (by decide)
  have index_value := value_count (Nat.le_trans (Nat.sub_le count 1) few)
  refine ⟨div p hundred, by exact_mod_cast rounded, ?_⟩
  rw [← index_value]
  exact isRounding_mul rounded.finite (greatestIndex_spec few).1
    (isRank_percentileRank few percentage).finite

/-! ## Percentiles -/

theorem percentile?_eq_none_iff {samples : List Binary64} {p : Binary64}
    (few : samples.length ≤ 2 ^ 53) :
    percentile? samples p = none ↔ samples = [] ∨ isPercentage p = false := by
  constructor
  · intro none
    by_contra other
    obtain ⟨nonempty, percentage⟩ := not_or.1 other
    rw [Bool.not_eq_false] at percentage
    obtain ⟨lower, upper, around⟩ := exists_around nonempty few percentage
    rw [percentile?_eq nonempty few percentage around] at none
    cases none
  · rintro (rfl | outside)
    · rfl
    · have outside' : (le zero p && le p hundred) = false := outside
      rw [percentile?, outside', Bool.not_false, Bool.or_true, if_pos rfl]

/-- There is no percentile of no samples, and none for what is not a number from 0 to 100. Else the rank is
the exact one, rounded to nearest in the quotient by 100 and again in the product. Its floor and its ceiling
are at most one apart and no greater than the greatest index, and the percentile is a point between the two
samples there, of the samples in order. -/
theorem percentile_in_list (samples : List Binary64) (few : samples.length ≤ 2 ^ 53) (p : Binary64) :
    let rank := percentileRank samples.length p
    (percentile? samples p = none ↔ samples = [] ∨ ¬IsPercent p) ∧
    (samples ≠ [] → IsPercent p →
      (∃ quotient, IsRounding (p.value / 100) quotient ∧
        IsRounding (quotient.value * (samples.length - 1 : Nat)) rank) ∧
      rank.floor = ⌊rank.value⌋₊ ∧ rank.ceil = ⌈rank.value⌉₊ ∧
      rank.floor ≤ rank.ceil ∧ rank.ceil ≤ samples.length - 1 ∧ rank.ceil ≤ rank.floor + 1 ∧
      ∃ lower upper, (sorted samples)[rank.floor]? = some lower ∧
        (sorted samples)[rank.ceil]? = some upper ∧
        percentile? samples p = some (pointAt rank lower upper)) := by
  intro rank
  refine ⟨?_, fun nonempty inRange => ?_⟩
  · rw [percentile?_eq_none_iff few, ← Bool.not_eq_true, isPercentage_iff]
  · have percentage : isPercentage p = true := isPercentage_iff.2 inRange
    have is_rank := isRank_percentileRank few percentage
    obtain ⟨lower, upper, around⟩ := exists_around nonempty few percentage
    exact ⟨isRounding_percentileRank few percentage, floor_eq is_rank.nonneg, ceil_eq is_rank.nonneg,
      floor_le_ceil rank, is_rank.ceil_le, ceil_le_floor_add_one rank, lower, upper, around.lower_at,
      around.upper_at, percentile?_eq nonempty few percentage around⟩

/-- The greatest number below 100. -/
def belowHundred : Binary64 := ⟨false, 1029 * binade + 9 * (binade / 16) - 1, by decide⟩

/-- The greatest number below 100 has a rank between the last two of three samples, whatever these are. -/
theorem percentile_in_list_below_hundred :
    [nan, infinity, nan.neg].length ≤ 2 ^ 53 ∧ lt belowHundred hundred = true ∧
    (percentileRank 3 belowHundred).floor = 1 ∧ (percentileRank 3 belowHundred).ceil = 2 ∧
    ∃ lower upper, (sorted [nan, infinity, nan.neg])[1]? = some lower ∧
      (sorted [nan, infinity, nan.neg])[2]? = some upper ∧
      percentile? [nan, infinity, nan.neg] belowHundred =
        some (pointAt (percentileRank 3 belowHundred) lower upper) := by
  have floor : (percentileRank 3 belowHundred).floor = 1 := by decide +kernel
  have ceil : (percentileRank 3 belowHundred).ceil = 2 := by decide +kernel
  have inRange := isPercentage_iff.1 (show isPercentage belowHundred = true by decide +kernel)
  obtain ⟨-, -, -, -, -, -, lower, upper, lower_at, upper_at, found⟩ :=
    (percentile_in_list [nan, infinity, nan.neg] (by decide) belowHundred).2
      (List.cons_ne_nil _ _) inRange
  have lower_at' : (sorted [nan, infinity, nan.neg])[(percentileRank 3 belowHundred).floor]? =
    some lower := lower_at
  have upper_at' : (sorted [nan, infinity, nan.neg])[(percentileRank 3 belowHundred).ceil]? =
    some upper := upper_at
  rw [floor] at lower_at'
  rw [ceil] at upper_at'
  exact ⟨by decide, by decide +kernel, floor, ceil, lower, upper, lower_at', upper_at', found⟩

end BenchLog
