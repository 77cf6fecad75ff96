import BenchLog.Proofs.Binary64.Ordering

/-!
# Points between two numbers

A part below one of a rounded difference is not rounded beyond the exact difference
(`roundedPart_le`): where the difference itself was rounded up, the part misses more than that. So a
point between two numbers lies between them (`le_interpolate`, `interpolate_le`) and does not fall as
the part grows (`interpolate_mono`). If the difference overflows, the point is an infinity, however
small the part (`interpolate_of_overflow`).
-/

namespace BenchLog.Binary64

open Decimal (lowerEnd)

/-- The point at a part of the way from one number to another. -/
def interpolate (lower upper part : Binary64) : Binary64 := add lower (mul part (sub upper lower))

/-! ## Parts of a rounded difference -/

/-- A quotient below the midpoint under a magnitude is rounded to a lesser one. -/
theorem nearestMagnitude_lt_of_lt_lowerEnd {num den magnitude : Nat} (pos : 0 < den)
    (below : 2 * num < lowerEnd magnitude * den) : nearestMagnitude num den < magnitude := by
  obtain ⟨nearest, spec, value⟩ := exists_isNearest num pos
  rw [value]
  refine Nat.lt_of_le_of_lt (Nat.min_le_left _ _) (Nat.not_le.1 fun beyond => ?_)
  have ends := Nat.mul_le_mul_right den (lowerEnd_mono beyond)
  have low := spec.low
  omega

/-- A whole number of units that is rounded up has 53 bits or more, so that the step below its
rounding is less than the last of 53 bits. -/
theorem step_lt_of_rounded_up {n magnitude : Nat} (low : lowerEnd (magnitude + 1) ≤ 2 * n)
    (up : n < unitsOf (magnitude + 1)) :
    binade * unitsOf (magnitude + 1) < binade * unitsOf magnitude + unitsOf (magnitude + 1) := by
  obtain ⟨shift, significand, rfl, small, normal⟩ := exists_grid magnitude
  have value := unitsOf_grid (show significand ≤ 2 * binade by omega) normal
  have next := unitsOf_grid (show significand + 1 ≤ 2 * binade by omega)
    (show shift = 0 ∨ binade ≤ significand + 1 by omega)
  unfold lowerEnd at low
  rw [Nat.add_sub_cancel, value] at low
  rw [Nat.add_assoc] at low up ⊢
  rw [next] at low up ⊢
  rw [value]
  by_cases full : binade ≤ significand
  · have step := Nat.mul_lt_mul_of_pos_right (show binade < significand + 1 by omega)
      (two_pow_pos shift)
    calc binade * ((significand + 1) * Nat.pow 2 shift)
        = binade * (significand * Nat.pow 2 shift) + binade * Nat.pow 2 shift := by ring
      _ < binade * (significand * Nat.pow 2 shift) + (significand + 1) * Nat.pow 2 shift :=
        Nat.add_lt_add_left step _
  · -- Below 53 bits every whole number of units is a double, and is not rounded.
    obtain rfl : shift = 0 := by omega
    rw [show Nat.pow 2 0 = 1 from rfl] at low up
    omega

/-- What a part of a difference is rounded to, in units, after the difference has been rounded. -/
def roundedPart (part rise : Nat) : Nat :=
  unitsOf (nearestMagnitude (part * unitsOf (nearestMagnitude rise 1)) unitsPerOne)

theorem roundedPart_mono {part part' : Nat} (rise : Nat) (le : part ≤ part') :
    roundedPart part rise ≤ roundedPart part' rise :=
  strictMono_unitsOf.monotone
    (nearestMagnitude_mono unitsPerOne_pos (Nat.mul_le_mul_right _ le))

theorem nearestMagnitude_part_le {part : Nat} (below_one : part ≤ unitsPerOne) (magnitude : Nat) :
    nearestMagnitude (part * unitsOf magnitude) unitsPerOne ≤ magnitude := by
  apply nearestMagnitude_le unitsPerOne_pos
  rw [Nat.mul_comm]
  exact Nat.mul_le_mul_left _ below_one

/-- So much is less than one, by the last of 53 bits or more. -/
def Misses (part one : Nat) : Prop := 2 * binade * part + one ≤ 2 * binade * one

theorem Misses.le {part one : Nat} (misses : Misses part one) : part ≤ one := by
  apply Nat.le_of_mul_le_mul_left _ (show 0 < 2 * binade by decide)
  exact Nat.le_trans (Nat.le_add_right _ _) misses

/-- Of a whole number that was rounded up, such a part lies below the midpoint under the rounding. -/
theorem Misses.lt_lowerEnd {part one n magnitude : Nat} (misses : Misses part one) (pos : 0 < one)
    (low : lowerEnd (magnitude + 1) ≤ 2 * n) (up : n < unitsOf (magnitude + 1)) :
    2 * (part * unitsOf (magnitude + 1)) < lowerEnd (magnitude + 1) * one := by
  have part_scaled := Nat.mul_le_mul_right (unitsOf (magnitude + 1)) misses
  have step_scaled := Nat.mul_lt_mul_of_pos_right (step_lt_of_rounded_up low up) pos
  unfold lowerEnd
  rw [Nat.add_sub_cancel]
  generalize binade = bits at part_scaled step_scaled
  apply Nat.lt_of_mul_lt_mul_left (a := bits)
  linarith

/-- A part that misses one by a last bit is not rounded beyond the exact difference. -/
theorem roundedPart_le {part rise : Nat}
    (misses : Misses part unitsPerOne)
    (finite : nearestMagnitude rise 1 < infinityMagnitude) : roundedPart part rise ≤ rise := by
  have nearest := (nearestMagnitude_eq_iff Nat.one_pos finite).1 rfl
  unfold roundedPart
  generalize nearestMagnitude rise 1 = magnitude at nearest ⊢
  have low := nearest.low
  rw [Nat.mul_one] at low
  by_cases up : rise < unitsOf magnitude
  · obtain ⟨before, rfl⟩ : ∃ before, magnitude = before + 1 := by
      refine Nat.exists_eq_succ_of_ne_zero fun none => ?_
      rw [none, unitsOf_zero] at up
      exact Nat.not_lt_zero _ up
    have rounded : nearestMagnitude (part * unitsOf (before + 1)) unitsPerOne < before + 1 :=
      nearestMagnitude_lt_of_lt_lowerEnd unitsPerOne_pos (misses.lt_lowerEnd unitsPerOne_pos low up)
    calc unitsOf (nearestMagnitude (part * unitsOf (before + 1)) unitsPerOne)
        ≤ unitsOf before := strictMono_unitsOf.monotone (Nat.le_of_lt_succ rounded)
      _ ≤ rise := by
        have apart := unitsOf_lt_succ before
        unfold lowerEnd at low
        rw [Nat.add_sub_cancel] at low
        omega
  · calc unitsOf (nearestMagnitude (part * unitsOf magnitude) unitsPerOne)
        ≤ unitsOf magnitude := strictMono_unitsOf.monotone (nearestMagnitude_part_le misses.le _)
      _ ≤ rise := Nat.not_lt.1 up

/-- A double below a power of two misses it by a last bit or more. -/
theorem misses_of_lt_run {magnitude run one : Nat} (start : unitsOf ((run + 2) * binade) = one)
    (below : unitsOf magnitude < one) : Misses (unitsOf magnitude) one := by
  have bits := binade_pos
  have places : (run + 2) * binade = run * binade + 2 * binade := Nat.add_mul run 2 binade
  have last : unitsOf (run * binade + (2 * binade - 1)) = (2 * binade - 1) * Nat.pow 2 run :=
    unitsOf_grid (Nat.sub_le _ _) (Or.inr (by omega))
  have up_to : unitsOf magnitude ≤ (2 * binade - 1) * Nat.pow 2 run := by
    rw [← start, strictMono_unitsOf.lt_iff_lt] at below
    rw [← last]
    exact strictMono_unitsOf.monotone (by omega)
  rw [places, unitsOf_grid (Nat.le_refl _) (Or.inr (by omega))] at start
  subst start
  unfold Misses
  calc 2 * binade * unitsOf magnitude + 2 * binade * Nat.pow 2 run
      ≤ 2 * binade * ((2 * binade - 1) * Nat.pow 2 run) + 2 * binade * Nat.pow 2 run :=
        Nat.add_le_add_right (Nat.mul_le_mul_left _ up_to) _
    _ = 2 * binade * (2 * binade * Nat.pow 2 run) := by
        rw [← Nat.mul_add, ← Nat.succ_mul, Nat.succ_eq_add_one, Nat.sub_add_cancel (by omega)]

theorem misses_of_lt_one {magnitude : Nat} (below : unitsOf magnitude < unitsPerOne) :
    Misses (unitsOf magnitude) unitsPerOne :=
  misses_of_lt_run (show unitsOf ((1021 + 2) * binade) = unitsPerOne from unitsOf_one) below

/-! ## Values that are not negative -/

theorem signedUnits_ofUnitRatio {negative : Bool} {num den : Nat} (nonneg : 0 ≤ signed negative num) :
    (ofUnitRatio negative num den).signedUnits = unitsOf (nearestMagnitude num den) := by
  cases negative with
  | false => rfl
  | true =>
    rw [signed_true] at nonneg
    obtain rfl : num = 0 := by omega
    simp [ofUnitRatio, signedUnits, units]

theorem signed_bne_mul (x y : Binary64) :
    signed (x.negative != y.negative) (x.units * y.units) = x.signedUnits * y.signedUnits := by
  rw [signedUnits_eq, signedUnits_eq]
  cases x.negative <;> cases y.negative <;> simp [signed]

theorem mul_infinity {x : Binary64} (finite : x.isFinite = true) (positive : 0 < x.signedUnits) :
    mul x infinity = infinity := by
  have sign : x.negative = false := by
    apply Bool.eq_false_iff.2
    intro negative
    rw [signedUnits_eq, negative, signed_true] at positive
    omega
  have nonzero : x.isZero = false := by
    apply decide_eq_false
    intro zero
    rw [signedUnits_eq, sign, signed_false, units, zero, unitsOf_zero] at positive
    exact absurd positive (by decide)
  unfold mul
  rw [isNaN_of_isFinite finite, isInfinite_of_finite (isFinite_iff.1 finite), nonzero, sign]
  rfl

theorem add_infinity {x : Binary64} (finite : x.isFinite = true) : add x infinity = infinity := by
  unfold add
  rw [isNaN_of_isFinite finite, isInfinite_of_finite (isFinite_iff.1 finite)]
  rfl

/-! ## Differences -/

/-- Two finite numbers in order, so many units apart. -/
structure Apart (lower upper : Binary64) (rise : Nat) : Prop where
  lower_finite : lower.isFinite = true
  upper_finite : upper.isFinite = true
  value : upper.signedUnits = lower.signedUnits + rise

theorem exists_apart {lower upper : Binary64} (lower_finite : lower.isFinite = true)
    (upper_finite : upper.isFinite = true) (order : lower.signedUnits ≤ upper.signedUnits) :
    ∃ rise, Apart lower upper rise :=
  ⟨(upper.signedUnits - lower.signedUnits).toNat, lower_finite, upper_finite, by omega⟩

namespace Apart

variable {lower upper : Binary64} {rise : Nat} (apart : Apart lower upper rise)

include apart

theorem exists_sub_eq : ∃ zeroSign, sub upper lower = ofUnits zeroSign rise := by
  have lower_finite : lower.neg.isFinite = true := apart.lower_finite
  have difference : upper.signedUnits + lower.neg.signedUnits = rise := by
    rw [signedUnits_neg, apart.value]
    omega
  exact ⟨_, by rw [sub, add_of_finite apart.upper_finite lower_finite, difference]⟩

theorem magnitude_sub : (sub upper lower).magnitude = nearestMagnitude rise 1 := by
  obtain ⟨zeroSign, difference⟩ := apart.exists_sub_eq
  rw [difference]
  rfl

theorem signedUnits_sub : (sub upper lower).signedUnits = unitsOf (nearestMagnitude rise 1) := by
  obtain ⟨zeroSign, difference⟩ := apart.exists_sub_eq
  rw [difference]
  apply signedUnits_ofUnitRatio
  rw [signed_sign]
  exact Int.natCast_nonneg rise

theorem isFinite_sub_iff :
    (sub upper lower).isFinite = true ↔ nearestMagnitude rise 1 < infinityMagnitude := by
  rw [isFinite_iff, apart.magnitude_sub]

theorem sub_of_overflow (overflow : (sub upper lower).isFinite = false) :
    sub upper lower = infinity := by
  have infinite : nearestMagnitude rise 1 = infinityMagnitude := by
    have not_finite := mt apart.isFinite_sub_iff.2 (Bool.eq_false_iff.1 overflow)
    exact Nat.le_antisymm (Nat.min_le_right _ _) (Nat.not_lt.1 not_finite)
  have some_rise : (rise : Int) ≠ 0 := by
    intro none
    rw [Int.natCast_eq_zero.1 none, nearestMagnitude_zero] at infinite
    exact absurd infinite (by decide)
  obtain ⟨zeroSign, difference⟩ := apart.exists_sub_eq
  rw [difference, ofUnits, if_neg some_rise]
  simp [ofUnitRatio, infinity, infinite]

end Apart

theorem isFinite_sub_self {x : Binary64} (finite : x.isFinite = true) :
    (sub x x).isFinite = true := by
  have apart : Apart x x 0 := ⟨finite, finite, by omega⟩
  rw [apart.isFinite_sub_iff, nearestMagnitude_zero]
  decide

/-! ## Points between two numbers -/

/-- A part of one: a double that is not negative and less than one. -/
structure IsPart (part : Binary64) : Prop where
  finite : part.isFinite = true
  nonneg : 0 ≤ part.signedUnits
  misses : Misses part.units unitsPerOne

section Interpolate

variable {lower upper part : Binary64} {rise : Nat} (apart : Apart lower upper rise)

include apart

/-- If the difference overflows, even a small part of it is an infinity. -/
theorem interpolate_of_overflow (finite : part.isFinite = true) (positive : 0 < part.signedUnits)
    (overflow : (sub upper lower).isFinite = false) : interpolate lower upper part = infinity := by
  rw [interpolate, apart.sub_of_overflow overflow, mul_infinity finite positive,
    add_infinity apart.lower_finite]

variable (is_part : IsPart part) (fits : (sub upper lower).isFinite = true)

include is_part fits

/-- The point is the exact sum of the one end and a rounded part, rounded once. -/
theorem exists_interpolate_eq : ∃ zeroSign, interpolate lower upper part =
    ofUnits zeroSign (lower.signedUnits + roundedPart part.units rise) := by
  have finite := apart.isFinite_sub_iff.1 fits
  have product := mul_of_finite (isFinite_iff.1 is_part.finite) (isFinite_iff.1 fits)
  have gap : (sub upper lower).units = unitsOf (nearestMagnitude rise 1) := by
    rw [units, apart.magnitude_sub]
  have product_finite : (mul part (sub upper lower)).isFinite = true := by
    rw [product, gap]
    exact isFinite_iff.2 (Nat.lt_of_le_of_lt (nearestMagnitude_part_le is_part.misses.le _) finite)
  have product_value : (mul part (sub upper lower)).signedUnits = roundedPart part.units rise := by
    rw [product, signedUnits_ofUnitRatio, gap, roundedPart]
    rw [signed_bne_mul, apart.signedUnits_sub]
    exact Int.mul_nonneg is_part.nonneg (Int.natCast_nonneg _)
  exact ⟨_, by rw [interpolate, add_of_finite apart.lower_finite product_finite, product_value]⟩

theorem le_interpolate : lower.signedUnits ≤ (interpolate lower upper part).signedUnits := by
  obtain ⟨zeroSign, point⟩ := exists_interpolate_eq apart is_part fits
  rw [point]
  apply le_ofUnits (isNaN_of_isFinite apart.lower_finite)
  omega

theorem interpolate_le : (interpolate lower upper part).signedUnits ≤ upper.signedUnits := by
  have inside := roundedPart_le is_part.misses (apart.isFinite_sub_iff.1 fits)
  obtain ⟨zeroSign, point⟩ := exists_interpolate_eq apart is_part fits
  rw [point]
  apply ofUnits_le (isNaN_of_isFinite apart.upper_finite)
  rw [apart.value]
  omega

theorem isNaN_interpolate : (interpolate lower upper part).isNaN = false := by
  obtain ⟨zeroSign, point⟩ := exists_interpolate_eq apart is_part fits
  rw [point]
  exact isNaN_ofUnits _ _

theorem interpolate_mono {part' : Binary64} (is_part' : IsPart part')
    (le : part.signedUnits ≤ part'.signedUnits) :
    (interpolate lower upper part).signedUnits ≤ (interpolate lower upper part').signedUnits := by
  have nonneg := is_part.nonneg
  have parts : part.units ≤ part'.units := by
    rw [← natAbs_signedUnits, ← natAbs_signedUnits]
    omega
  have risen := roundedPart_mono rise parts
  obtain ⟨zeroSign, point⟩ := exists_interpolate_eq apart is_part fits
  obtain ⟨zeroSign', point'⟩ := exists_interpolate_eq apart is_part' fits
  rw [point, point']
  apply ofUnits_mono
  omega

end Interpolate

end BenchLog.Binary64
