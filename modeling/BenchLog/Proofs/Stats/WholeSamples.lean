import BenchLog.Proofs.Binary64.ExactSums
import BenchLog.Proofs.Stats.Accuracy

/-!
# Means of whole samples

After a sum that comes out exactly, a mean is rounded once, in the quotient by the count: it is the double
nearest to the exact mean (`TrimmedMean.isRounding_mean`). Sums of whole numbers come out exactly, in
whatever order and with whatever signs, if the numbers come to no more than `2 ^ 53` without their signs
(`TrimmedMean.mean_nearest_of_whole`).
-/

namespace BenchLog

open Binary64

namespace Binary64

variable {x : Binary64}

/-- A double is the one nearest to its own value. -/
theorem isRounding_value (finite : x.isFinite = true) : IsRounding x.value x where
  finite := finite
  nearest y _ := by
    rw [sub_self, abs_zero]
    exact abs_nonneg _
  even y _ differ tie := by
    rw [sub_self, abs_zero, abs_eq_zero, sub_eq_zero] at tie
    exact absurd tie differ

/-- A quotient by a count is rounded once. -/
theorem isRounding_div_count {n : Nat} (finite : x.isFinite = true) (pos : 0 < n) (few : n ≤ 2 ^ 53) :
    IsRounding (x.value / n) (div x (ofNat n)) := by
  obtain ⟨count_finite, count_units⟩ := units_count (show n ≤ 2 * binade from few)
  have quotient := div_of_finite (isFinite_iff.1 finite) (isFinite_iff.1 count_finite)
    (isZero_count pos few)
  have whole := isFinite_div_ofNat finite pos few
  rw [negative_ofNat, Bool.bne_false, count_units] at quotient
  rw [quotient] at whole ⊢
  have exact : x.value / n = (signed x.negative x.units : ℚ) / (n * unitsPerOne : Nat) := by
    rw [value, signedUnits_eq, Nat.cast_mul, div_div, mul_comm]
  rw [exact]
  exact isRounding_ofRatio _ (Nat.mul_pos pos unitsPerOne_pos) whole

theorem abs_value_eq_units (x : Binary64) : |x.value| = x.units / unitsPerOne := by
  rw [abs_value, ← natAbs_signedUnits, Nat.cast_natAbs, Int.cast_abs]

theorem sum_abs_value (xs : List Binary64) :
    (xs.map fun x => |x.value|).sum = ((xs.map units).sum : ℚ) / unitsPerOne := by
  induction xs with
  | nil => rw [List.map_nil, List.map_nil, List.sum_nil, List.sum_nil, Nat.cast_zero, zero_div]
  | cons x xs ih =>
    rw [List.map_cons, List.sum_cons, ih, List.map_cons, List.sum_cons, abs_value_eq_units]
    push_cast
    ring

/-- A double whose value is whole is a whole multiple of one. -/
theorem dvd_signedUnits_of_value_eq {k : Int} (whole : x.value = k) :
    (unitsPerOne : Int) ∣ x.signedUnits := by
  refine ⟨k, ?_⟩
  rw [value, div_eq_iff cast_unitsPerOne_pos.ne'] at whole
  rw [Int.mul_comm]
  exact_mod_cast whole

end Binary64

namespace TrimmedMean

variable {samples kept : List Binary64} {trimmed : TrimmedMean}

/-- After a sum that comes out exactly, the mean is rounded once. -/
theorem isRounding_mean (finite : ∀ x ∈ samples, x.isFinite = true) (few : samples.length ≤ 2 ^ 53)
    (run : ofSamples? samples = some trimmed) (total : (sum trimmed.kept).isFinite = true)
    (exact : (sum trimmed.kept).signedUnits = exactSum trimmed.kept) :
    IsRounding (exactMean trimmed.kept) trimmed.mean := by
  have size := length_kept run
  have pos := List.length_pos_iff.2 (kept_ne_nil run)
  have count : (trimmed.kept.length : ℚ) ≠ 0 := Nat.cast_ne_zero.2 pos.ne'
  have head := List.head?_eq_some_head (kept_ne_nil run)
  have tail := List.getLast?_eq_some_getLast (kept_ne_nil run)
  rcases mean_cases run head tail with ⟨same, mean⟩ | ⟨-, -, mean⟩ | ⟨-, overflow, -⟩
  · have ends := (eq_ends_iff finite run head tail).1 same
    rw [exactMean_eq, exactSum_of_ends_eq (pairwise_kept run) head tail ends, Int.cast_mul,
      Int.cast_natCast, mul_div_cancel_left₀ _ count, mean]
    exact isRounding_value (finite_ends finite run head tail).1
  · have value : exactMean trimmed.kept = (sum trimmed.kept).value / trimmed.kept.length := by
      rw [exactMean_eq, ← exact, div_right_comm]
      rfl
    rw [mean, Spread.meanOf, value]
    exact isRounding_div_count total pos (by omega)
  · rw [total] at overflow
    cases overflow

/-- Whole samples, of which the kept ones come to no more than `2 ^ 53` without their signs, have the double
nearest to the exact mean of the kept ones as their trimmed mean, a tie going to the even pattern. So
it is for any order of the samples. -/
theorem mean_nearest_of_whole (few : samples.length < 2 ^ 53)
    (whole : ∀ x ∈ samples, x.isFinite = true ∧ ∃ k : Int, x.value = k)
    (trims : trimExtremes? samples = some kept) (small : (kept.map fun x => |x.value|).sum ≤ 2 ^ 53) :
    ∃ trimmed, ofSamples? samples = some trimmed ∧ trimmed.kept = kept ∧
      IsRounding (exactMean kept) trimmed.mean ∧
      ∀ samples' : List Binary64, samples'.Perm samples → ofSamples? samples' = some trimmed := by
  have enough : 3 ≤ samples.length := by
    rw [← not_lt, ← trimExtremes?_eq_none_iff, trims]
    exact Option.some_ne_none kept
  obtain ⟨trimmed, run⟩ := exists_ofSamples? enough
  obtain rfl : trimmed.kept = kept :=
    Option.some.inj ((trimExtremes?_of_ofSamples? run).symm.trans trims)
  have finite : ∀ x ∈ samples, x.isFinite = true := fun x mem => (whole x mem).1
  rw [sum_abs_value, div_le_iff₀ cast_unitsPerOne_pos] at small
  obtain ⟨total, exact⟩ := sum_exact_of_whole (finite_kept finite run)
    (fun x mem => dvd_signedUnits_of_value_eq (whole x (mem_of_mem_kept run mem)).2.choose_spec)
    (by exact_mod_cast small)
  refine ⟨trimmed, run, rfl, isRounding_mean finite few.le run total exact, fun samples' same => ?_⟩
  rw [ofSamples?_eq_of_perm same, run]

/-- The kept samples -1, 0 and 2 have the double nearest to a third as their mean. -/
theorem mean_nearest_of_whole_third :
    [ofNat 2, (ofNat 1).neg, ofNat 7, ofNat 0, (ofNat 9).neg].length < 2 ^ 53 ∧
    (∀ x ∈ [ofNat 2, (ofNat 1).neg, ofNat 7, ofNat 0, (ofNat 9).neg],
      x.isFinite = true ∧ ∃ k : Int, x.value = k) ∧
    trimExtremes? [ofNat 2, (ofNat 1).neg, ofNat 7, ofNat 0, (ofNat 9).neg] =
      some [(ofNat 1).neg, ofNat 0, ofNat 2] ∧
    ([(ofNat 1).neg, ofNat 0, ofNat 2].map fun x => |x.value|).sum ≤ 2 ^ 53 ∧
    ∃ trimmed, ofSamples? [ofNat 2, (ofNat 1).neg, ofNat 7, ofNat 0, (ofNat 9).neg] = some trimmed ∧
      IsRounding (1 / 3) trimmed.mean := by
  have values : (ofNat 0).value = 0 ∧ (ofNat 1).value = 1 ∧ (ofNat 2).value = 2 ∧
      (ofNat 7).value = 7 ∧ (ofNat 9).value = 9 := by
    refine ⟨?_, ?_, ?_, ?_, ?_⟩ <;> exact_mod_cast value_count (by decide)
  obtain ⟨zero, one, two, seven, nine⟩ := values
  have whole : ∀ x ∈ [ofNat 2, (ofNat 1).neg, ofNat 7, ofNat 0, (ofNat 9).neg],
      x.isFinite = true ∧ ∃ k : Int, x.value = k := by
    simp only [List.forall_mem_cons, value_neg, zero, one, two, seven, nine]
    exact ⟨⟨by decide +kernel, 2, rfl⟩, ⟨by decide +kernel, -1, rfl⟩, ⟨by decide +kernel, 7, rfl⟩,
      ⟨by decide +kernel, 0, rfl⟩, ⟨by decide +kernel, -9, rfl⟩, fun x mem => nomatch mem⟩
  have order : sorted [ofNat 2, (ofNat 1).neg, ofNat 7, ofNat 0, (ofNat 9).neg] =
      [(ofNat 9).neg, (ofNat 1).neg, ofNat 0, ofNat 2, ofNat 7] :=
    (sorted_eq_of_perm (by decide +kernel)).trans (sorted_eq_self (by decide +kernel))
  have trims : trimExtremes? [ofNat 2, (ofNat 1).neg, ofNat 7, ofNat 0, (ofNat 9).neg] =
      some [(ofNat 1).neg, ofNat 0, ofNat 2] := by
    rw [trimExtremes?, order]
    rfl
  have small : ([(ofNat 1).neg, ofNat 0, ofNat 2].map fun x => |x.value|).sum ≤ 2 ^ 53 := by
    simp only [List.map_cons, List.map_nil, List.sum_cons, List.sum_nil, value_neg, zero, one, two]
    norm_num
  obtain ⟨trimmed, run, -, nearest, -⟩ := mean_nearest_of_whole (by decide) whole trims small
  have third : exactMean [(ofNat 1).neg, ofNat 0, ofNat 2] = 1 / 3 := by
    simp only [exactMean, List.map_cons, List.map_nil, List.sum_cons, List.sum_nil, value_neg, zero,
      one, two]
    norm_num
  exact ⟨by decide, whole, trims, small, trimmed, run, third ▸ nearest⟩

end TrimmedMean

end BenchLog
