import BenchLog.Proofs.Binary64.Ordering
import Mathlib.Algebra.Order.Field.Rat
import Mathlib.Algebra.BigOperators.Group.List.Basic
import Mathlib.Algebra.Order.Group.Unbundled.Abs
import Mathlib.Tactic.FieldSimp
import Mathlib.Tactic.Positivity

/-!
# Sums and their rounding errors

A rounding is off by half a unit or by the 53rd bit (`ofUnitRatio_error`), and an addition by the 53rd
bit only (`add_error`). A sum from left to right is no NaN, and if it is finite, then so are all its
partial sums (`isFinite_of_add`); so it is off by the square of the number of its terms, in 53rd bits
of their bound (`sum_error`). Sums that stay in range are finite (`isFinite_sum`), and one that does not
has left it at one addition (`exists_overflow`).
-/

namespace BenchLog.Binary64

/-- The greatest finite number. -/
def greatest : Binary64 := ⟨false, infinityMagnitude - 1, by decide⟩

/-! ## One rounding -/

/-- The value of the nearest magnitude is off by half a unit or by half a step of 53 bits. -/
theorem exists_nearest_error (num : Nat) {den : Nat} (pos : 0 < den) : ∃ magnitude step,
    nearestMagnitude num den = min magnitude infinityMagnitude ∧
      (step = den ∨ binade * step ≤ num) ∧
      2 * (unitsOf magnitude * den) ≤ 2 * num + step ∧
      2 * num ≤ 2 * (unitsOf magnitude * den) + step := by
  obtain ⟨small, normal, least⟩ := roundDiv_shift num pos
  have near := roundDiv_near num (Nat.mul_pos pos (two_pow_pos ((num / den).log2 - 52)))
  refine ⟨_, den * Nat.pow 2 ((num / den).log2 - 52), rfl, ?_, ?_⟩
  · rcases least with none | scaled
    · left
      rw [none]
      exact Nat.mul_one den
    · exact Or.inr scaled
  · rw [unitsOf_grid small normal, Nat.mul_assoc, Nat.mul_comm (Nat.pow 2 _) den]
    exact near

/-- A quotient that does not exceed the greatest number has a finite rounding. -/
theorem isFinite_ofUnitRatio {num den : Nat} (negative : Bool) (pos : 0 < den)
    (le : num ≤ greatest.units * den) : (ofUnitRatio negative num den).isFinite = true := by
  apply isFinite_iff.2
  calc nearestMagnitude num den ≤ greatest.magnitude := nearestMagnitude_le pos le
    _ < infinityMagnitude := by decide

/-- A rounding that is finite is off by half a unit or by the 53rd bit. -/
theorem ofUnitRatio_error {negative : Bool} {num den : Nat} (pos : 0 < den)
    (finite : (ofUnitRatio negative num den).isFinite = true) :
    |((ofUnitRatio negative num den).signedUnits : ℚ) - (signed negative num : ℚ) / den| ≤
      max (1 / 2) ((num : ℚ) / den / 2 ^ 53) := by
  obtain ⟨magnitude, step, nearest, small, above, below⟩ := exists_nearest_error num pos
  have same : (ofUnitRatio negative num den).magnitude = magnitude := by
    have bound : nearestMagnitude num den < infinityMagnitude := isFinite_iff.1 finite
    show nearestMagnitude num den = magnitude
    omega
  have pos' : (0 : ℚ) < den := Nat.cast_pos.2 pos
  have off : |(unitsOf magnitude : ℚ) - num / den| ≤ step / den / 2 := by
    have above' : 2 * ((unitsOf magnitude : ℚ) * den) ≤ 2 * num + step := by exact_mod_cast above
    have below' : (2 : ℚ) * num ≤ 2 * (unitsOf magnitude * den) + step := by exact_mod_cast below
    have scaled : (unitsOf magnitude : ℚ) - num / den = (unitsOf magnitude * den - num) / den := by
      field_simp
    rw [scaled, abs_div, abs_of_pos pos', div_div, mul_comm (den : ℚ) 2, ← div_div,
      div_le_div_iff_of_pos_right pos', abs_le]
    constructor <;> linarith
  have within : (step : ℚ) / den / 2 ≤ max (1 / 2) ((num : ℚ) / den / 2 ^ 53) := by
    rcases small with rfl | scaled
    · apply le_max_of_le_left
      rw [div_self pos'.ne']
    · apply le_max_of_le_right
      have scaled' : (2 : ℚ) ^ 52 * step ≤ num := by exact_mod_cast scaled
      rw [div_div, div_div, div_le_div_iff₀ (by positivity) (by positivity)]
      calc (step : ℚ) * (den * 2 ^ 53) = 2 ^ 52 * step * (den * 2) := by ring
        _ ≤ (num : ℚ) * (den * 2) := mul_le_mul_of_nonneg_right scaled' (by positivity)
  have signs : |((ofUnitRatio negative num den).signedUnits : ℚ) - (signed negative num : ℚ) / den| =
      |(unitsOf magnitude : ℚ) - num / den| := by
    rw [signedUnits_eq, units, same]
    cases negative
    · simp [ofUnitRatio]
    · rw [← abs_neg]
      simp [ofUnitRatio]
      ring_nf
  rw [signs]
  exact off.trans within

/-! ## Additions -/

theorem isFinite_of_number {x : Binary64} (number : x.isNaN = false)
    (bounded : x.isInfinite = false) : x.isFinite = true := by
  have le := isNaN_eq_false_iff.1 number
  have ne : x.magnitude ≠ infinityMagnitude := of_decide_eq_false bounded
  exact isFinite_iff.2 (by omega)

theorem isFinite_eq_false_of_isInfinite {x : Binary64} (infinite : x.isInfinite = true) :
    x.isFinite = false := by
  have same : x.magnitude = infinityMagnitude := of_decide_eq_true infinite
  exact decide_eq_false (by omega)

/-- A sum is finite only if both terms are. -/
theorem isFinite_of_add {x y : Binary64} (finite : (add x y).isFinite = true) :
    x.isFinite = true ∧ y.isFinite = true := by
  unfold add at finite
  split at finite
  · cases finite
  · next numbers =>
    rw [Bool.or_eq_true, not_or, Bool.not_eq_true, Bool.not_eq_true] at numbers
    split at finite
    · next infinite =>
      split at finite
      · cases finite
      · rw [isFinite_eq_false_of_isInfinite infinite] at finite
        cases finite
    · next x_bounded =>
      split at finite
      · next infinite =>
        rw [isFinite_eq_false_of_isInfinite infinite] at finite
        cases finite
      · next y_bounded =>
        rw [Bool.not_eq_true] at x_bounded y_bounded
        exact ⟨isFinite_of_number numbers.1 x_bounded, isFinite_of_number numbers.2 y_bounded⟩

/-- A finite term makes no NaN of a number. -/
theorem isNaN_add {x y : Binary64} (number : x.isNaN = false) (finite : y.isFinite = true) :
    (add x y).isNaN = false := by
  have y_number := isNaN_of_isFinite finite
  have y_bounded := isInfinite_of_finite (isFinite_iff.1 finite)
  unfold add
  rw [number, y_number, y_bounded]
  by_cases infinite : x.isInfinite = true
  · simpa [infinite] using number
  · simpa [infinite] using isNaN_ofUnits _ _

/-- A whole number that is at most a half away from zero is zero. -/
theorem abs_le_of_le_max {n : Int} {bound : ℚ} (nonneg : 0 ≤ bound)
    (le : |(n : ℚ)| ≤ max (1 / 2) bound) : |(n : ℚ)| ≤ bound := by
  rcases le_max_iff.1 le with half | le
  · have less : |(n : ℚ)| < 1 := by linarith
    have zero : n = 0 := Int.abs_lt_one_iff.1 (by exact_mod_cast less)
    simpa [zero] using nonneg
  · exact le

/-- An exact sum is a whole number of units, so the rounding is off by no more than the 53rd bit. -/
theorem add_error {x y : Binary64} (finite : (add x y).isFinite = true) :
    |((add x y).signedUnits : ℚ) - (x.signedUnits + y.signedUnits)| ≤
      |(x.signedUnits : ℚ) + y.signedUnits| / 2 ^ 53 := by
  obtain ⟨x_finite, y_finite⟩ := isFinite_of_add finite
  rw [add_of_finite x_finite y_finite] at finite ⊢
  have off := ofUnitRatio_error Nat.one_pos finite
  rw [signed_sign, Nat.cast_natAbs] at off
  push_cast at off
  rw [div_one, div_one] at off
  have whole := abs_le_of_le_max (n := (ofUnits (x.negative && y.negative)
    (x.signedUnits + y.signedUnits)).signedUnits - (x.signedUnits + y.signedUnits))
    (show 0 ≤ |(x.signedUnits : ℚ) + y.signedUnits| / 2 ^ 53 by positivity)
  push_cast at whole
  exact whole off

theorem natAbs_le_of_abs_le {n : Int} {limit : Nat} (le : |(n : ℚ)| ≤ limit) : n.natAbs ≤ limit := by
  rw [← Int.cast_abs, Int.abs_eq_natAbs] at le
  exact_mod_cast le

/-- A sum that does not exceed the greatest number is finite. -/
theorem isFinite_add {x y : Binary64} (x_finite : x.isFinite = true) (y_finite : y.isFinite = true)
    (le : |(x.signedUnits : ℚ) + y.signedUnits| ≤ greatest.units) : (add x y).isFinite = true := by
  rw [add_of_finite x_finite y_finite]
  apply isFinite_ofUnitRatio _ Nat.one_pos
  rw [Nat.mul_one]
  apply natAbs_le_of_abs_le
  rwa [Int.cast_add]

/-! ## Sums -/

/-- The exact sum, in units. -/
def exactSum (xs : List Binary64) : Int := (xs.map signedUnits).sum

@[simp] theorem exactSum_nil : exactSum [] = 0 := rfl

@[simp] theorem exactSum_cons (x : Binary64) (xs : List Binary64) :
    exactSum (x :: xs) = x.signedUnits + exactSum xs := by
  simp [exactSum]

@[simp] theorem exactSum_append (xs ys : List Binary64) :
    exactSum (xs ++ ys) = exactSum xs + exactSum ys := by
  simp [exactSum]

@[simp] theorem exactSum_singleton (x : Binary64) : exactSum [x] = x.signedUnits := by
  simp [exactSum]

theorem sum_concat (xs : List Binary64) (x : Binary64) : sum (xs ++ [x]) = add (sum xs) x := by
  simp [sum]

theorem isNaN_sum {xs : List Binary64} (finite : ∀ x ∈ xs, x.isFinite = true) :
    (sum xs).isNaN = false := by
  induction xs using List.reverseRecOn with
  | nil => decide
  | append_singleton xs x ih =>
    rw [sum_concat]
    exact isNaN_add (ih fun y mem => finite y (by simp [mem])) (finite x (by simp))

section Bounded

variable {xs : List Binary64} {x : Binary64} {bound : ℚ}

theorem abs_exactSum_le (each : ∀ x ∈ xs, |(x.signedUnits : ℚ)| ≤ bound) :
    |(exactSum xs : ℚ)| ≤ xs.length * bound := by
  induction xs with
  | nil => simp
  | cons x xs ih =>
    have head := each x (by simp)
    have tail := ih fun y mem => each y (by simp [mem])
    have parts := abs_add_le (x.signedUnits : ℚ) (exactSum xs)
    rw [exactSum_cons]
    push_cast [List.length_cons]
    linarith

/-- The next exact partial sum, from a rounded one. -/
theorem abs_sum_add_le (each : ∀ y ∈ xs ++ [x], |(y.signedUnits : ℚ)| ≤ bound) {loss : ℚ}
    (error : |((sum xs).signedUnits : ℚ) - exactSum xs| ≤ loss) :
    |((sum xs).signedUnits : ℚ) + x.signedUnits| ≤ (xs.length + 1) * bound + loss := by
  have before := abs_exactSum_le fun y mem => each y (List.mem_append_left _ mem)
  have last := each x (by simp)
  calc |((sum xs).signedUnits : ℚ) + x.signedUnits|
      = |((sum xs).signedUnits - exactSum xs) + (exactSum xs : ℚ) + x.signedUnits| := by ring_nf
    _ ≤ |((sum xs).signedUnits : ℚ) - exactSum xs| + |(exactSum xs : ℚ)| + |(x.signedUnits : ℚ)| :=
      abs_add_three _ _ _
    _ ≤ (xs.length + 1) * bound + loss := by linarith

theorem square_le {k : Nat} (few : k ≤ 2 ^ 53) (nonneg : 0 ≤ bound) :
    (k : ℚ) ^ 2 * bound / 2 ^ 53 ≤ k * bound := by
  have few' : (k : ℚ) ≤ 2 ^ 53 := by exact_mod_cast few
  rw [div_le_iff₀ (by positivity)]
  nlinarith [mul_nonneg (Nat.cast_nonneg (α := ℚ) k) nonneg]

theorem square_le_succ (k : Nat) (nonneg : 0 ≤ bound) :
    (k : ℚ) ^ 2 * bound / 2 ^ 53 ≤ (k + 1) ^ 2 * bound / 2 ^ 53 := by
  gcongr
  linarith

/-- Of `k` terms, no addition loses more than the 53rd bit of `2 * k + 1` times their bound; so the
losses add up to a square. -/
theorem sum_error (each : ∀ x ∈ xs, |(x.signedUnits : ℚ)| ≤ bound) (few : xs.length ≤ 2 ^ 53)
    (finite : (sum xs).isFinite = true) :
    |((sum xs).signedUnits : ℚ) - exactSum xs| ≤ xs.length ^ 2 * bound / 2 ^ 53 := by
  induction xs using List.reverseRecOn with
  | nil => simp [sum, negativeZero, signedUnits, units]
  | append_singleton xs x ih =>
    rw [sum_concat] at finite ⊢
    rw [List.length_append, List.length_singleton] at few ⊢
    have before := ih (fun y mem => each y (List.mem_append_left _ mem)) (by omega)
      (isFinite_of_add finite).1
    have nonneg : 0 ≤ bound := (abs_nonneg _).trans (each x (by simp))
    have size := abs_sum_add_le each before
    have square := square_le (show xs.length ≤ 2 ^ 53 by omega) nonneg
    have step := add_error finite
    calc |((add (sum xs) x).signedUnits : ℚ) - exactSum (xs ++ [x])|
        = |(((add (sum xs) x).signedUnits : ℚ) - ((sum xs).signedUnits + x.signedUnits)) +
            ((sum xs).signedUnits - exactSum xs)| := by
          rw [exactSum_append, exactSum_singleton]
          push_cast
          ring_nf
      _ ≤ |((add (sum xs) x).signedUnits : ℚ) - ((sum xs).signedUnits + x.signedUnits)| +
            |((sum xs).signedUnits : ℚ) - exactSum xs| := abs_add_le _ _
      _ ≤ (2 * xs.length + 1) * bound / 2 ^ 53 + xs.length ^ 2 * bound / 2 ^ 53 := by
          apply add_le_add _ before
          apply step.trans
          gcongr
          linarith
      _ = ((xs.length + 1 : Nat) : ℚ) ^ 2 * bound / 2 ^ 53 := by
          push_cast
          ring

/-- Sums that stay below the greatest number, and what they lose with them, are finite. -/
theorem isFinite_sum (finite : ∀ x ∈ xs, x.isFinite = true)
    (each : ∀ x ∈ xs, |(x.signedUnits : ℚ)| ≤ bound) (few : xs.length ≤ 2 ^ 53)
    (fits : xs.length * bound + xs.length ^ 2 * bound / 2 ^ 53 ≤ greatest.units) :
    (sum xs).isFinite = true := by
  induction xs using List.reverseRecOn with
  | nil => decide
  | append_singleton xs x ih =>
    rw [sum_concat]
    rw [List.length_append, List.length_singleton] at few fits
    push_cast at fits
    have each' := fun y mem => each y (List.mem_append_left _ mem)
    have nonneg : 0 ≤ bound := (abs_nonneg _).trans (each x (by simp))
    have square := square_le_succ xs.length nonneg
    have less : xs.length * bound + xs.length ^ 2 * bound / 2 ^ 53 ≤
        (xs.length + 1) * bound + (xs.length + 1) ^ 2 * bound / 2 ^ 53 := by
      linarith only [square, nonneg]
    have before := ih (fun y mem => finite y (List.mem_append_left _ mem)) each' (by omega)
      (less.trans fits)
    apply isFinite_add before (finite x (by simp))
    have size := abs_sum_add_le each (sum_error each' (by omega) before)
    exact (size.trans (add_le_add_right square _)).trans fits

end Bounded

/-- A sum of finite numbers overflows at one addition, up to which it is finite. -/
theorem exists_overflow {xs : List Binary64} (finite : ∀ x ∈ xs, x.isFinite = true)
    (overflow : (sum xs).isFinite = false) :
    ∃ before x after, xs = before ++ x :: after ∧ (sum before).isFinite = true ∧
      (greatest.units : ℚ) < |((sum before).signedUnits : ℚ) + x.signedUnits| := by
  induction xs using List.reverseRecOn with
  | nil => exact absurd overflow (by decide)
  | append_singleton xs x ih =>
    cases partial_sum : (sum xs).isFinite with
    | true =>
      refine ⟨xs, x, [], rfl, partial_sum, not_le.1 fun fits => ?_⟩
      rw [sum_concat, isFinite_add partial_sum (finite x (by simp)) fits] at overflow
      cases overflow
    | false =>
      obtain ⟨before, y, after, rfl, whole, beyond⟩ :=
        ih (fun y mem => finite y (List.mem_append_left _ mem)) partial_sum
      exact ⟨before, y, after ++ [x], by simp, whole, beyond⟩

end BenchLog.Binary64
