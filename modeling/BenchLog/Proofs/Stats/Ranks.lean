import BenchLog.Proofs.Binary64.Interpolation
import BenchLog.Proofs.Stats.Means
import BenchLog.Proofs.Stats.Median

/-!
# Ranks of percentiles

A rank is a number from zero to the greatest index (`IsRank`), so both samples that it asks for are
there, and its part beyond the index below comes out exactly (`IsRank.signedUnits_part`). The rank of a
percentage is one (`isRank_percentileRank`). It grows with the percentage
(`units_percentileRank_mono`), from zero to the greatest index (`units_percentileRank_hundred`).
-/

namespace BenchLog

open Binary64

/-! ## Whole parts -/

namespace Binary64

theorem floor_mono {x y : Binary64} (le : x.units ≤ y.units) : x.floor ≤ y.floor :=
  Nat.div_le_div_right le

theorem ceil_mono {x y : Binary64} (le : x.units ≤ y.units) : x.ceil ≤ y.ceil :=
  Nat.div_le_div_right (Nat.sub_le_sub_right (Nat.add_le_add_right le _) 1)

theorem floor_le_ceil (x : Binary64) : x.floor ≤ x.ceil := by
  have pos := unitsPerOne_pos
  exact Nat.div_le_div_right (show x.units ≤ x.units + unitsPerOne - 1 by omega)

theorem ceil_le_floor_add_one (x : Binary64) : x.ceil ≤ x.floor + 1 := by
  have pos := unitsPerOne_pos
  calc x.ceil ≤ (x.units + unitsPerOne) / unitsPerOne := Nat.div_le_div_right (Nat.sub_le _ _)
    _ = x.floor + 1 := Nat.add_div_right _ pos

/-- A whole number is its own whole part. -/
theorem floor_eq_of_whole {x : Binary64} {n : Nat} (whole : x.units = n * unitsPerOne) :
    x.floor = n ∧ x.ceil = n := by
  have floor : x.floor = n := by rw [Binary64.floor, whole, Nat.mul_div_cancel n unitsPerOne_pos]
  exact ⟨floor, Nat.le_antisymm (ceil_le_of_units_le whole.le) (floor ▸ floor_le_ceil x)⟩

theorem mod_pos_of_floor_ne_ceil {x : Binary64} (between : x.floor ≠ x.ceil) :
    0 < x.units % unitsPerOne := by
  refine Nat.pos_of_ne_zero fun none => between ?_
  have whole : x.units = x.floor * unitsPerOne :=
    (Nat.div_mul_cancel (Nat.dvd_of_mod_eq_zero none)).symm
  exact (floor_eq_of_whole whole).2.symm

end Binary64

/-! ## Ranks -/

/-- A rank is a number from zero to the greatest of so many indices. -/
structure IsRank (count : Nat) (rank : Binary64) : Prop where
  finite : rank.isFinite = true
  nonneg : 0 ≤ rank.signedUnits
  le : rank.units ≤ (count - 1) * unitsPerOne

namespace IsRank

variable {count : Nat} {rank : Binary64} (is_rank : IsRank count rank) (few : count ≤ 2 ^ 53)

include is_rank

theorem units_eq : rank.signedUnits = rank.units := by
  have size := natAbs_signedUnits rank
  have nonneg := is_rank.nonneg
  omega

theorem floor_le : rank.floor ≤ count - 1 := floor_le_of_units_le is_rank.le

theorem ceil_le : rank.ceil ≤ count - 1 := ceil_le_of_units_le is_rank.le

include few

/-- The part of a rank beyond the index below it comes out exactly. -/
theorem signedUnits_part :
    (sub rank (ofNat rank.floor)).isFinite = true ∧
      (sub rank (ofNat rank.floor)).signedUnits = (rank.units % unitsPerOne : Nat) := by
  obtain ⟨rest, value⟩ := exists_unitsOf_mod rank.magnitude unitsPerOne_eq
  have rest_lt : unitsOf rest < unitsPerOne := by
    rw [value]
    exact Nat.mod_lt _ unitsPerOne_pos
  have rest_finite : rest < infinityMagnitude := by
    rw [← unitsOf_one, strictMono_unitsOf.lt_iff_lt] at rest_lt
    exact Nat.lt_trans rest_lt (by decide)
  obtain ⟨floor_finite, floor_units⟩ := units_count (show rank.floor ≤ 2 * binade from
    Nat.le_trans is_rank.floor_le (Nat.le_trans (Nat.sub_le _ _) few))
  have beyond : rank.signedUnits = (ofNat rank.floor).signedUnits + (unitsOf rest : Nat) := by
    have split := Nat.div_add_mod' rank.units unitsPerOne
    rw [is_rank.units_eq, signedUnits_ofNat, floor_units, value, ← Nat.cast_add]
    exact congrArg Nat.cast split.symm
  have apart : Apart (ofNat rank.floor) rank (unitsOf rest) := ⟨floor_finite, is_rank.finite, beyond⟩
  have magnitude := apart.magnitude_sub
  have units := apart.signedUnits_sub
  rw [nearestMagnitude_whole rfl rest_finite] at magnitude units
  refine ⟨isFinite_iff.2 (by rwa [magnitude]), ?_⟩
  rw [units, value]
  rfl

theorem isPart_sub_floor : IsPart (sub rank (ofNat rank.floor)) := by
  obtain ⟨finite, value⟩ := is_rank.signedUnits_part few
  refine ⟨finite, by rw [value]; exact Int.natCast_nonneg _, misses_of_lt_one ?_⟩
  have size := natAbs_signedUnits (sub rank (ofNat rank.floor))
  rw [value, Int.natAbs_natCast] at size
  rw [← units, ← size]
  exact Nat.mod_lt _ unitsPerOne_pos

end IsRank

/-- Is `p` a percentage, from 0 to 100? -/
def isPercentage (p : Binary64) : Bool := le zero p && le p hundred

theorem isPercentage_fifty : isPercentage (ofNat 50) = true := by decide +kernel

theorem hundred_spec : hundred.isFinite = true ∧ hundred.units = 100 * unitsPerOne :=
  units_count (show 100 ≤ 2 * binade by decide)

theorem percentage_spec {p : Binary64} (percentage : isPercentage p = true) :
    p.isFinite = true ∧ 0 ≤ p.signedUnits ∧ p.units ≤ 100 * unitsPerOne := by
  obtain ⟨hundred_finite, hundred_units⟩ := hundred_spec
  have number : p.isNaN = false := by
    cases nan : p.isNaN with
    | false => rfl
    | true => simp [isPercentage, le, nan] at percentage
  rw [isPercentage, Bool.and_eq_true, le_iff (by decide) number,
    le_iff number (isNaN_of_isFinite hundred_finite)] at percentage
  obtain ⟨low, high⟩ := percentage
  have nonneg : 0 ≤ p.signedUnits := low
  have units_le : p.units ≤ hundred.units := by
    have size := natAbs_signedUnits p
    rw [hundred, signedUnits_ofNat] at high
    rw [hundred]
    omega
  refine ⟨isFinite_iff.2 ?_, nonneg, by rwa [← hundred_units]⟩
  exact Nat.lt_of_le_of_lt (strictMono_unitsOf.le_iff_le.1 units_le) (isFinite_iff.1 hundred_finite)

section Rank

variable {count : Nat} (few : count ≤ 2 ^ 53) {p : Binary64}

include few

theorem greatestIndex_spec : (ofNat (count - 1)).isFinite = true ∧
    (ofNat (count - 1)).units = (count - 1) * unitsPerOne :=
  units_count (Nat.le_trans (Nat.sub_le count 1) few)

theorem percentileRank_eq (finite : p.isFinite = true) : percentileRank count p =
    ofUnitRatio p.negative (unitsOf (nearestMagnitude p.units 100) * (count - 1)) 1 := by
  obtain ⟨count_finite, count_units⟩ := greatestIndex_spec few
  have quotient := div_ofNat finite (show 0 < 100 by decide) (by decide)
  have quotient_finite := isFinite_div_ofNat finite (show 0 < 100 by decide) (by decide)
  rw [percentileRank, hundred, mul_of_finite (isFinite_iff.1 quotient_finite)
    (isFinite_iff.1 count_finite), quotient, count_units, ← Nat.mul_assoc,
    ofUnitRatio_mul_right _ _ unitsPerOne_pos, negative_ofNat, Bool.bne_false, negative_ofUnitRatio,
    units_ofUnitRatio]

variable (percentage : isPercentage p = true)

include percentage

/-- The rank of a percentage, in units. -/
theorem units_percentileRank : (percentileRank count p).units =
    unitsOf (nearestMagnitude (unitsOf (nearestMagnitude p.units 100) * (count - 1)) 1) := by
  rw [percentileRank_eq few (percentage_spec percentage).1]
  rfl

theorem isRank_percentileRank : IsRank count (percentileRank count p) := by
  obtain ⟨finite, nonneg, le_hundred⟩ := percentage_spec percentage
  obtain ⟨count_finite, count_units⟩ := greatestIndex_spec few
  have quotient_le : unitsOf (nearestMagnitude p.units 100) ≤ unitsPerOne := by
    rw [← unitsOf_one, strictMono_unitsOf.le_iff_le]
    apply nearestMagnitude_le (by decide)
    rwa [unitsOf_one, Nat.mul_comm]
  have magnitude_le : (percentileRank count p).magnitude ≤ (ofNat (count - 1)).magnitude := by
    rw [percentileRank_eq few finite]
    apply nearestMagnitude_le Nat.one_pos
    rw [← units, count_units, Nat.mul_one, Nat.mul_comm]
    exact Nat.mul_le_mul_left _ quotient_le
  refine ⟨isFinite_iff.2 (Nat.lt_of_le_of_lt magnitude_le (isFinite_iff.1 count_finite)), ?_, ?_⟩
  · rw [percentileRank_eq few finite, signedUnits_ofUnitRatio]
    · exact Int.natCast_nonneg _
    · cases sign : p.negative with
      | false => exact Int.natCast_nonneg _
      | true =>
        -- Only a zero is negative and a percentage.
        rw [signedUnits_eq, sign, signed_true] at nonneg
        have none : p.units = 0 := by omega
        rw [none, nearestMagnitude_zero, unitsOf_zero, Nat.zero_mul]
        exact le_refl _
  · rw [← count_units]
    exact strictMono_unitsOf.monotone magnitude_le

/-- A greater percentage has no lesser rank. -/
theorem units_percentileRank_mono {q : Binary64} (percentage' : isPercentage q = true)
    (le : p.units ≤ q.units) :
    (percentileRank count p).units ≤ (percentileRank count q).units := by
  rw [units_percentileRank few percentage, units_percentileRank few percentage']
  have quotient := strictMono_unitsOf.monotone
    (nearestMagnitude_mono (show 0 < 100 by decide) le)
  exact strictMono_unitsOf.monotone
    (nearestMagnitude_mono Nat.one_pos (Nat.mul_le_mul_right _ quotient))

end Rank

theorem units_percentileRank_zero {count : Nat} (few : count ≤ 2 ^ 53) :
    (percentileRank count zero).units = 0 := by
  rw [units_percentileRank few (by decide +kernel), units, show zero.magnitude = 0 from rfl,
    unitsOf_zero, nearestMagnitude_zero, unitsOf_zero, Nat.zero_mul, nearestMagnitude_zero,
    unitsOf_zero]

theorem units_percentileRank_hundred {count : Nat} (few : count ≤ 2 ^ 53) :
    (percentileRank count hundred).units = (count - 1) * unitsPerOne := by
  have quotient : nearestMagnitude (100 * unitsPerOne) 100 = 1023 * binade := by
    rw [← unitsOf_one, Nat.mul_comm]
    exact nearestMagnitude_unitsOf (by decide) (by decide)
  obtain ⟨count_finite, count_units⟩ := greatestIndex_spec few
  rw [units_percentileRank few (by decide +kernel), hundred_spec.2, quotient, unitsOf_one,
    Nat.mul_comm, ← count_units, units, nearestMagnitude_whole rfl (isFinite_iff.1 count_finite)]

end BenchLog
