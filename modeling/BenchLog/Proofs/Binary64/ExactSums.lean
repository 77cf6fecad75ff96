import BenchLog.Proofs.Binary64.Sums
import BenchLog.Proofs.Binary64.Value
import Mathlib.Algebra.BigOperators.Ring.List

/-!
# Sums that come out exactly

A result that is a double is not rounded (`add_exact`). So a sum from left to right comes out exactly if
all its exact partial sums are doubles (`sum_exact`), as those of whole numbers are that come to no more
than `2 ^ 53` without their signs (`sum_exact_of_whole`).
-/

namespace BenchLog.Binary64

variable {x y z : Binary64} {xs : List Binary64}

/-! ## One value, one magnitude -/

theorem magnitude_eq_of_signedUnits_eq (same : x.signedUnits = y.signedUnits) :
    x.magnitude = y.magnitude := by
  apply strictMono_unitsOf.injective
  show x.units = y.units
  rw [← natAbs_signedUnits, same, natAbs_signedUnits]

theorem isFinite_of_signedUnits_eq (finite : y.isFinite = true)
    (same : x.signedUnits = y.signedUnits) : x.isFinite = true := by
  rw [isFinite_iff, magnitude_eq_of_signedUnits_eq same]
  exact isFinite_iff.1 finite

/-- Two doubles of one value are the same, zeros apart. -/
theorem eq_of_signedUnits_eq (same : x.signedUnits = y.signedUnits) (nonzero : y.isZero = false) :
    x = y := by
  have positive : y.magnitude ≠ 0 := of_decide_eq_false nonzero
  have levels := le_antisymm ((level_le_iff x y).2 same.le) ((level_le_iff y x).2 same.ge)
  apply rank_injective
  obtain ⟨negative, magnitude, _⟩ := x
  obtain ⟨negative', magnitude', _⟩ := y
  cases negative <;> cases negative' <;>
    simp only [rank, level, if_true, if_false, Bool.false_eq_true] at positive levels ⊢
  all_goals omega

theorem value_neg (x : Binary64) : x.neg.value = -x.value := by
  rw [value, value, signedUnits_neg, Int.cast_neg, neg_div]

theorem value_abs (x : Binary64) : x.abs.value = |x.value| := by
  have size : x.abs.signedUnits = |x.signedUnits| := by
    rw [Int.abs_eq_natAbs, natAbs_signedUnits]
    rfl
  rw [value, value, size, Int.cast_abs, abs_div, Nat.abs_cast]

theorem value_zero : zero.value = 0 := by
  rw [value, show zero.signedUnits = 0 by decide, Int.cast_zero, zero_div]

theorem value_count {n : Nat} (few : n ≤ 2 ^ 53) : (ofNat n).value = n := by
  rw [value, signedUnits_ofNat, (units_count few).2]
  push_cast
  exact mul_div_cancel_right₀ _ cast_unitsPerOne_pos.ne'

theorem value_eq_iff : x.value = y.value ↔ x.signedUnits = y.signedUnits := by
  rw [value, value, div_left_inj' cast_unitsPerOne_pos.ne', Int.cast_inj]

/-! ## Sums -/

/-- A sum that is a double is not rounded. -/
theorem add_exact (x_finite : x.isFinite = true) (y_finite : y.isFinite = true)
    (z_finite : z.isFinite = true) (total : x.signedUnits + y.signedUnits = z.signedUnits) :
    (add x y).isFinite = true ∧ (add x y).signedUnits = z.signedUnits := by
  have number := isNaN_of_isFinite z_finite
  have same : (add x y).signedUnits = z.signedUnits := by
    rw [add_of_finite x_finite y_finite, total]
    exact le_antisymm (ofUnits_le number _ (le_refl _)) (le_ofUnits number _ (le_refl _))
  exact ⟨isFinite_of_signedUnits_eq z_finite same, same⟩

/-- Where every exact partial sum is a double, nothing is rounded. -/
theorem sum_exact (finite : ∀ x ∈ xs, x.isFinite = true)
    (each : ∀ front, front <+: xs → ∃ y : Binary64, y.isFinite = true ∧ y.signedUnits = exactSum front) :
    (sum xs).isFinite = true ∧ (sum xs).signedUnits = exactSum xs := by
  induction xs using List.reverseRecOn with
  | nil => decide
  | append_singleton xs x ih =>
    obtain ⟨before_finite, before⟩ := ih (fun y mem => finite y (List.mem_append_left _ mem))
      fun front start => each front (start.trans (List.prefix_append xs [x]))
    obtain ⟨y, y_finite, value⟩ := each (xs ++ [x]) (List.prefix_refl _)
    rw [exactSum_append, exactSum_singleton, ← before] at value
    rw [sum_concat, exactSum_append, exactSum_singleton, ← before, ← value]
    exact add_exact before_finite (finite x (by simp)) y_finite value.symm

/-! ## Whole numbers -/

/-- A whole number of at most 53 bits is a double. -/
theorem exists_whole {k : Int} (small : k.natAbs ≤ 2 ^ 53) :
    ∃ y : Binary64, y.isFinite = true ∧ y.signedUnits = k * unitsPerOne := by
  obtain ⟨finite, units⟩ := units_count (show k.natAbs ≤ 2 * binade from small)
  have value : (ofNat k.natAbs).signedUnits = k.natAbs * unitsPerOne := by
    rw [signedUnits_ofNat, units, Nat.cast_mul]
  rcases Int.natAbs_eq k with same | opposite
  · refine ⟨ofNat k.natAbs, finite, ?_⟩
    rw [value, ← same]
  · refine ⟨(ofNat k.natAbs).neg, finite, ?_⟩
    rw [signedUnits_neg, value, ← Int.neg_mul, ← opposite]

theorem natAbs_exactSum_le (xs : List Binary64) : (exactSum xs).natAbs ≤ (xs.map units).sum := by
  induction xs with
  | nil => simp
  | cons x xs ih =>
    rw [exactSum_cons, List.map_cons, List.sum_cons, ← natAbs_signedUnits x]
    exact (Int.natAbs_add_le _ _).trans (Nat.add_le_add_left ih _)

/-- A sum of whole numbers is exact if they come to no more than `2 ^ 53` without their signs. -/
theorem sum_exact_of_whole (finite : ∀ x ∈ xs, x.isFinite = true)
    (whole : ∀ x ∈ xs, (unitsPerOne : Int) ∣ x.signedUnits)
    (small : (xs.map units).sum ≤ 2 ^ 53 * unitsPerOne) :
    (sum xs).isFinite = true ∧ (sum xs).signedUnits = exactSum xs := by
  refine sum_exact finite fun front start => ?_
  obtain ⟨rest, rfl⟩ := start
  rw [List.map_append, List.sum_append] at small
  obtain ⟨k, total⟩ : (unitsPerOne : Int) ∣ exactSum front :=
    List.dvd_sum (List.forall_mem_map.2 fun x mem => whole x (List.mem_append_left _ mem))
  have size := natAbs_exactSum_le front
  rw [total, Int.natAbs_mul, Int.natAbs_natCast, Nat.mul_comm] at size
  obtain ⟨y, y_finite, value⟩ := exists_whole (k := k) (Nat.le_of_mul_le_mul_right
    (size.trans ((Nat.le_add_right _ _).trans small)) unitsPerOne_pos)
  exact ⟨y, y_finite, by rw [value, total, Int.mul_comm]⟩

end BenchLog.Binary64
