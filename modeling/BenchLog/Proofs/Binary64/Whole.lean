import BenchLog.Proofs.Binary64.Nearest

/-!
# Whole numbers as doubles

A whole number of at most 53 bits, times a power of two that stays in range, is a double
(`units_ofNat`, `units_count`). Products and quotients of finite numbers round once (`mul_of_finite`,
`div_of_finite`).
-/

namespace BenchLog.Binary64

theorem unitsPerOne_pos : 0 < unitsPerOne := two_pow_pos 1074

theorem isFinite_iff {x : Binary64} : x.isFinite = true ↔ x.magnitude < infinityMagnitude :=
  decide_eq_true_iff

theorem isNaN_of_finite {x : Binary64} (finite : x.magnitude < infinityMagnitude) :
    x.isNaN = false :=
  decide_eq_false (by omega)

theorem isInfinite_of_finite {x : Binary64} (finite : x.magnitude < infinityMagnitude) :
    x.isInfinite = false :=
  decide_eq_false (by omega)

theorem unitsOf_run (run : Nat) : unitsOf ((run + 1) * binade) = binade * Nat.pow 2 run := by
  rw [Nat.add_mul, Nat.one_mul]
  exact unitsOf_grid (by omega) (Or.inr (Nat.le_refl _))

/-- What is below `2 ^ 1024` in value is finite. -/
theorem lt_infinityMagnitude {magnitude run : Nat} (in_range : run < 2046)
    (below : unitsOf magnitude ≤ binade * Nat.pow 2 run) : magnitude < infinityMagnitude := by
  rw [← unitsOf_run, strictMono_unitsOf.le_iff_le] at below
  calc magnitude ≤ (run + 1) * binade := below
    _ < infinityMagnitude := Nat.mul_lt_mul_of_pos_right (by omega) binade_pos

theorem unitsPerOne_eq : unitsPerOne = Nat.pow 2 1074 := by rw [unitsPerOne]

theorem two_pow_add_1074 (n : Nat) : Nat.pow 2 (n + 1074) = Nat.pow 2 n * unitsPerOne := by
  rw [unitsPerOne]
  exact Nat.pow_add 2 n 1074

/-- The powers of two from one on stand at the start of their runs. -/
theorem unitsOf_two_pow (exponent : Nat) :
    unitsOf ((exponent + 1023) * binade) = Nat.pow 2 exponent * unitsPerOne := by
  rw [← two_pow_add_1074, show exponent + 1023 = exponent + 1022 + 1 by omega, unitsOf_run,
    show exponent + 1074 = 52 + (exponent + 1022) by omega]
  exact (Nat.pow_add 2 52 (exponent + 1022)).symm

theorem unitsOf_one : unitsOf (1023 * binade) = unitsPerOne := by
  have value := unitsOf_two_pow 0
  generalize unitsPerOne = one at value ⊢
  exact value.trans (Nat.one_mul one)

theorem nearestMagnitude_whole {units magnitude : Nat} (value : unitsOf magnitude = units)
    (finite : magnitude < infinityMagnitude) : nearestMagnitude units 1 = magnitude := by
  have exact_value := nearestMagnitude_unitsOf Nat.one_pos finite
  rwa [Nat.mul_one, value] at exact_value

theorem units_ofNat {significand : Nat} (small : significand ≤ 2 * binade) {shift : Nat}
    (in_range : shift < 971) :
    (ofNat (significand * Nat.pow 2 shift)).magnitude < infinityMagnitude ∧
      (ofNat (significand * Nat.pow 2 shift)).units =
        significand * Nat.pow 2 shift * unitsPerOne := by
  obtain ⟨magnitude, value⟩ := exists_unitsOf_eq small (shift + 1074)
  have finite : magnitude < infinityMagnitude := by
    apply lt_infinityMagnitude (show shift + 1074 + 1 < 2046 by omega)
    calc unitsOf magnitude = significand * Nat.pow 2 (shift + 1074) := value
      _ ≤ 2 * binade * Nat.pow 2 (shift + 1074) := Nat.mul_le_mul_right _ small
      _ = binade * Nat.pow 2 (shift + 1074 + 1) := by
        rw [two_pow_succ (shift + 1074)]
        ring
  rw [two_pow_add_1074, ← Nat.mul_assoc] at value
  have nearest : (ofNat (significand * Nat.pow 2 shift)).magnitude = magnitude :=
    nearestMagnitude_whole value finite
  rw [units, nearest, value]
  exact ⟨finite, rfl⟩

/-- A count of at most 53 bits is a double. -/
theorem units_count {n : Nat} (few : n ≤ 2 * binade) :
    (ofNat n).isFinite = true ∧ (ofNat n).units = n * unitsPerOne := by
  have whole := units_ofNat few (show 0 < 971 by decide)
  rw [show n * Nat.pow 2 0 = n from Nat.mul_one n] at whole
  exact ⟨isFinite_iff.2 whole.1, whole.2⟩

theorem isZero_count {n : Nat} (pos : 0 < n) (few : n ≤ 2 * binade) : (ofNat n).isZero = false := by
  apply decide_eq_false
  intro zero
  have none : (ofNat n).units = 0 := by rw [units, zero, unitsOf_zero]
  rw [(units_count few).2] at none
  exact absurd none (Nat.mul_pos pos unitsPerOne_pos).ne'

@[simp] theorem negative_ofUnitRatio (negative : Bool) (num den : Nat) :
    (ofUnitRatio negative num den).negative = negative := rfl

@[simp] theorem units_ofUnitRatio (negative : Bool) (num den : Nat) :
    (ofUnitRatio negative num den).units = unitsOf (nearestMagnitude num den) := rfl

@[simp] theorem negative_ofNat (n : Nat) : (ofNat n).negative = false := rfl

theorem signedUnits_ofNat (n : Nat) : (ofNat n).signedUnits = (ofNat n).units := rfl

/-- A whole multiple of one is rounded as the multiplier is. -/
theorem ofUnitRatio_mul_right (negative : Bool) (num : Nat) {factor : Nat} (pos : 0 < factor) :
    ofUnitRatio negative (num * factor) factor = ofUnitRatio negative num 1 := by
  have same := @nearestMagnitude_mul num 1 factor Nat.one_pos pos
  rw [Nat.one_mul] at same
  simp only [ofUnitRatio, same]

theorem mul_of_finite {x y : Binary64} (x_finite : x.magnitude < infinityMagnitude)
    (y_finite : y.magnitude < infinityMagnitude) :
    x.mul y = ofUnitRatio (x.negative != y.negative) (x.units * y.units) unitsPerOne := by
  simp [mul, isNaN_of_finite, isInfinite_of_finite, x_finite, y_finite]

theorem div_of_finite {x y : Binary64} (x_finite : x.magnitude < infinityMagnitude)
    (y_finite : y.magnitude < infinityMagnitude) (nonzero : y.isZero = false) :
    x.div y = ofRatio (x.negative != y.negative) x.units y.units := by
  simp [div, isNaN_of_finite, isInfinite_of_finite, x_finite, y_finite, nonzero]

end BenchLog.Binary64
