import BenchLog.Proofs.Binary64.ExactSums
import BenchLog.Proofs.Stats.Accuracy
import BenchLog.Proofs.Stats.Deviations
import BenchLog.Proofs.Stats.Percentiles

/-!
# The spread of equal samples

The least, middle and greatest of equal samples are the sample itself, but the mean of the spread is a
rounded sum over the count. It is the sample if no partial sum has to be rounded, and then nothing
deviates from it; else it can be off by the slack (`Spread.ofSamples?_replicate`). A mean that is off
makes samples deviate that do not differ, and a sum that overflows makes them deviate without bound
(`Spread.exists_equal_samples_deviate`).
-/

namespace BenchLog

open Binary64

namespace Spread

/-! ## The mean -/

section Mean

variable {samples : List Binary64} {spread : Spread}

theorem mean_of_ofSamples? (order : samples.Pairwise fun x y => totalLe x y = true)
    (run : ofSamples? samples = some spread) : spread.mean = meanOf samples := by
  obtain ⟨-, -, -, mean, -⟩ := of_ofSamples? run
  rw [mean, sorted_eq_self order]

/-- The mean of samples whose sum is not finite is an infinity. -/
theorem isInfinite_meanOf (finite : ∀ x ∈ samples, x.isFinite = true)
    (few : samples.length ≤ 2 ^ 53) (overflow : (sum samples).isFinite = false) :
    (meanOf samples).isInfinite = true := by
  have infinite : (sum samples).isInfinite = true := by
    by_contra bounded
    rw [isFinite_of_number (isNaN_sum finite) (Bool.eq_false_iff.2 bounded)] at overflow
    cases overflow
  exact isInfinite_div infinite (units_count few).1

variable {first last : Binary64} (order : samples.Pairwise fun x y => totalLe x y = true)
  (finite : ∀ x ∈ samples, x.isFinite = true) (few : samples.length ≤ 2 ^ 53)
  (head : samples.head? = some first) (tail : samples.getLast? = some last)
  (same : first.signedUnits = last.signedUnits) (total : (sum samples).isFinite = true)

include order finite few head tail same total

/-- An exact sum gives equal samples as their mean. -/
theorem signedUnits_meanOf_of_exact (exact : (sum samples).signedUnits = exactSum samples) :
    (meanOf samples).signedUnits = first.signedUnits := by
  have pos := List.length_pos_of_mem (List.mem_of_mem_head? head)
  have number := isNaN_of_isFinite (finite first (List.mem_of_mem_head? head))
  apply le_antisymm
  · apply meanOf_le number pos few total exact
    intro x mem
    rw [same]
    exact le_last order tail mem
  · exact le_meanOf number pos few total exact fun x mem => first_le order head mem

/-- The mean of equal samples is off by no more than the slack. -/
theorem meanOf_error_of_equal :
    |((meanOf samples).signedUnits : ℚ) - first.signedUnits| ≤
      meanSlack samples.length (reach first last) := by
  by_cases several : 2 ≤ samples.length
  · have off := meanOf_error (fun x mem => abs_le_reach order head tail mem) several few total
    have count : (samples.length : ℚ) ≠ 0 := Nat.cast_ne_zero.2 (by omega)
    rw [exactSum_of_ends_eq order head tail same] at off
    push_cast at off
    rwa [mul_div_cancel_left₀ _ count] at off
  · obtain ⟨more, rfl⟩ := List.head?_eq_some_iff.1 head
    obtain rfl : more = [] := List.length_eq_zero_iff.1 (by rw [List.length_cons] at several; omega)
    have exact : sum [first] = first := negativeZero_add (isNaN_of_isFinite (finite first (by simp)))
    rw [signedUnits_meanOf_of_exact order finite few head tail same total (by simp [exact]),
      sub_self, abs_zero]
    unfold meanSlack reach
    positivity

end Mean

/-! ## Copies of one sample -/

section Copies

variable {v : Binary64} {n : Nat}

theorem pairwise_replicate (n : Nat) (v : Binary64) :
    (List.replicate n v).Pairwise fun x y => totalLe x y = true :=
  List.pairwise_replicate.2 (Or.inr (decide_eq_true (le_refl _)))

theorem exactSum_replicate (n : Nat) (v : Binary64) :
    exactSum (List.replicate n v) = n * v.signedUnits := by
  rw [exactSum, List.map_replicate, List.sum_replicate, nsmul_eq_mul]

theorem stdDev_of_replicate {spread : Spread} (run : ofSamples? (List.replicate n v) = some spread) :
    spread.stdDev = sqrt (varianceOf (List.replicate n v) spread.mean) := by
  rw [stdDev_of_ofSamples? run, sorted_eq_self (pairwise_replicate n v)]

/-- A sample is the first and the last of its copies. -/
theorem ends_replicate (pos : 1 ≤ n) :
    (List.replicate n v).head? = some v ∧ (List.replicate n v).getLast? = some v := by
  rw [List.head?_replicate, List.getLast?_replicate, if_neg (by omega)]
  exact ⟨rfl, rfl⟩

variable (finite : v.isFinite = true)

include finite

theorem finite_replicate : ∀ x ∈ List.replicate n v, x.isFinite = true :=
  fun _ mem => List.eq_of_mem_replicate mem ▸ finite

/-- If all multiples up to a count are doubles, then so many copies are added up without rounding. -/
theorem sum_replicate_exact
    (multiples : ∀ k ≤ n, ∃ y : Binary64, y.isFinite = true ∧ y.value = k * v.value) :
    (sum (List.replicate n v)).isFinite = true ∧
      (sum (List.replicate n v)).signedUnits = exactSum (List.replicate n v) := by
  refine sum_exact (finite_replicate finite) fun front start => ?_
  obtain ⟨y, y_finite, value⟩ := multiples front.length (by simpa using start.length_le)
  have copies : front = List.replicate front.length v :=
    List.eq_replicate_iff.2 ⟨rfl, fun x mem => List.eq_of_mem_replicate (start.subset mem)⟩
  refine ⟨y, y_finite, ?_⟩
  rw [copies, exactSum_replicate]
  rw [Binary64.value, Binary64.value, ← mul_div_assoc, div_left_inj' cast_unitsPerOne_pos.ne'] at value
  exact_mod_cast value

/-- More than one copy is added up where the sum overflows. -/
theorem two_le_of_overflow (pos : 1 ≤ n) (overflow : (sum (List.replicate n v)).isFinite = false) :
    2 ≤ n := by
  by_contra single
  obtain rfl : n = 1 := by omega
  have alone : sum (List.replicate 1 v) = v := negativeZero_add (isNaN_of_isFinite finite)
  rw [alone, finite] at overflow
  cases overflow

variable (nonzero : v.isZero = false)

include nonzero in
theorem percentile?_replicate (pos : 1 ≤ n) (few : n ≤ 2 ^ 53) {p : Binary64}
    (percentage : isPercentage p = true) : percentile? (List.replicate n v) p = some v := by
  have nonempty : List.replicate n v ≠ [] := List.ne_nil_of_length_pos (by rwa [List.length_replicate])
  have few' : (List.replicate n v).length ≤ 2 ^ 53 := by simpa using few
  obtain ⟨lower, upper, around⟩ := exists_around nonempty few' percentage
  obtain rfl := List.eq_of_mem_replicate around.lower_mem
  obtain rfl := List.eq_of_mem_replicate around.upper_mem
  obtain ⟨-, low, high⟩ := around.point_between (finite_replicate finite) few' percentage
    (around.gapFits_eq.trans (isFinite_sub_self finite))
  rw [percentile?_eq nonempty few' percentage around,
    eq_of_signedUnits_eq (le_antisymm high low) nonzero]

variable {spread : Spread} (few : n < 2 ^ 53) (run : ofSamples? (List.replicate n v) = some spread)

include run few

include nonzero in
theorem mean_of_multiples (pos : 1 ≤ n)
    (multiples : ∀ k ≤ n, ∃ y : Binary64, y.isFinite = true ∧ y.value = k * v.value) :
    spread.mean = v := by
  have order := pairwise_replicate n v
  obtain ⟨head, tail⟩ := @ends_replicate v n pos
  obtain ⟨total, exact⟩ := sum_replicate_exact finite multiples
  rw [mean_of_ofSamples? order run]
  exact eq_of_signedUnits_eq (signedUnits_meanOf_of_exact order (finite_replicate finite)
    (by simpa using few.le) head tail rfl total exact) nonzero

theorem abs_mean_sub_le (pos : 1 ≤ n) (total : (sum (List.replicate n v)).isFinite = true) :
    |spread.mean.value - v.value| ≤ n * |v.value| / 2 ^ 52 + 1 / 2 ^ 1074 := by
  have one_pos := cast_unitsPerOne_pos
  have order := pairwise_replicate n v
  obtain ⟨head, tail⟩ := @ends_replicate v n pos
  have off := meanOf_error_of_equal order (finite_replicate finite) (by simpa using few.le) head tail
    rfl total
  have slack : n * |v.value| / 2 ^ 52 + 1 / 2 ^ 1074 =
      meanSlack n |(v.signedUnits : ℚ)| / unitsPerOne := by rw [meanSlack_div, abs_value]
  rw [List.length_replicate, reach, max_self] at off
  rw [slack, mean_of_ofSamples? order run, value, value, ← sub_div, abs_div, Nat.abs_cast,
    div_le_div_iff_of_pos_right one_pos]
  exact off

theorem stdDev_of_mean_eq (same : spread.mean = v) : spread.stdDev = zero := by
  rw [stdDev_of_replicate run, same]
  exact stdDev_of_equal finite (by simpa using few.le) fun x mem => List.eq_of_mem_replicate mem

theorem infinite_of_overflow (pos : 1 ≤ n) (overflow : (sum (List.replicate n v)).isFinite = false) :
    spread.mean.isInfinite = true ∧ spread.stdDev = infinity := by
  have each : ∀ x ∈ List.replicate n v, x.isFinite = true := finite_replicate finite
  have few' : (List.replicate n v).length ≤ 2 ^ 53 := by simpa using few.le
  have several := two_le_of_overflow finite pos overflow
  have infinite : spread.mean.isInfinite = true := by
    rw [mean_of_ofSamples? (pairwise_replicate n v) run]
    exact isInfinite_meanOf each few' overflow
  rw [stdDev_of_replicate run]
  exact ⟨infinite, stdDev_of_infinite each few' (by simpa using several) infinite⟩

end Copies

/-! ## The coefficient of variation -/

section Variation

variable {spread : Spread}

theorem coefficientOfVariation_of_none (finite : spread.mean.isFinite = true)
    (nonzero : spread.mean.isZero = false) (none : spread.stdDev = zero) :
    spread.coefficientOfVariation = zero := by
  have size : IsUnsigned spread.mean.abs := ⟨isNaN_of_isFinite finite, rfl⟩
  rw [coefficientOfVariation, eq_zero_eq_isZero (isNaN_of_isFinite finite), nonzero, none,
    if_neg Bool.false_ne_true]
  exact zero_div_of_finite size finite nonzero

theorem coefficientOfVariation_of_infinite (infinite : spread.mean.isInfinite = true)
    (unbounded : spread.stdDev = infinity) : spread.coefficientOfVariation = nan := by
  have number := isNaN_of_isInfinite infinite
  have infinite' : spread.mean.abs.isInfinite = true := infinite
  have number' : spread.mean.abs.isNaN = false := number
  rw [coefficientOfVariation, eq_zero_eq_isZero number, isZero_of_isInfinite infinite, unbounded,
    if_neg Bool.false_ne_true, div, infinite', number']
  rfl

end Variation

/-- The spread of copies of a finite sample other than zero. Its least, middle and greatest value are that
sample. So is its mean if the multiples of the sample up to the count are doubles, and then there is no
deviation; else the mean can be off by the slack. If the sum overflows, the mean and the deviation are
infinite. -/
theorem ofSamples?_replicate {v : Binary64} {n : Nat} (finite : v.isFinite = true)
    (nonzero : v.isZero = false) (pos : 1 ≤ n) (few : n < 2 ^ 53) :
    ∃ spread, ofSamples? (List.replicate n v) = some spread ∧ spread.min = v ∧ spread.p50 = v ∧
      spread.max = v ∧ spread.count = n ∧
      ((∀ k ≤ n, ∃ y : Binary64, y.isFinite = true ∧ y.value = k * v.value) → spread.mean = v) ∧
      (spread.mean = v → spread.stdDev = zero ∧ spread.coefficientOfVariation = zero) ∧
      ((sum (List.replicate n v)).isFinite = true →
        |spread.mean.value - v.value| ≤ n * |v.value| / 2 ^ 52 + 1 / 2 ^ 1074) ∧
      ((sum (List.replicate n v)).isFinite = false → spread.mean.isInfinite = true ∧
        spread.stdDev = infinity ∧ spread.coefficientOfVariation = nan) := by
  have length : (List.replicate n v).length = n := List.length_replicate
  obtain ⟨spread, run⟩ := @exists_ofSamples? (List.replicate n v)
    (List.ne_nil_of_length_pos (by omega)) (by rw [length]; exact few.trans (by decide))
  obtain ⟨min, max, median, -, count⟩ := of_ofSamples? run
  obtain ⟨head, tail⟩ := @ends_replicate v n pos
  rw [sorted_eq_self (pairwise_replicate n v)] at min max median
  rw [percentile?_replicate finite nonzero pos few.le isPercentage_fifty] at median
  refine ⟨spread, run, Option.some.inj (min.symm.trans head), (Option.some.inj median).symm,
    Option.some.inj (max.symm.trans tail), by omega, mean_of_multiples finite nonzero few run pos,
    fun same => ?_, abs_mean_sub_le finite few run pos, fun overflow => ?_⟩
  · have none := stdDev_of_mean_eq finite few run same
    refine ⟨none, coefficientOfVariation_of_none ?_ ?_ none⟩
    · rw [same, finite]
    · rw [same, nonzero]
  · obtain ⟨infinite, unbounded⟩ := infinite_of_overflow finite few run pos overflow
    exact ⟨infinite, unbounded, coefficientOfVariation_of_infinite infinite unbounded⟩

/-- Eight times a hundred is added up without rounding. -/
theorem ofSamples?_replicate_hundred :
    hundred.isFinite = true ∧ hundred.isZero = false ∧ 1 ≤ 8 ∧ 8 < 2 ^ 53 ∧
    ∃ spread, ofSamples? (List.replicate 8 hundred) = some spread ∧ spread.mean = hundred ∧
      spread.stdDev = zero ∧ spread.coefficientOfVariation = zero := by
  have finite : hundred.isFinite = true := hundred_spec.1
  have nonzero : hundred.isZero = false := isZero_count (by decide) (by decide)
  obtain ⟨spread, run, -, -, -, -, exact, none, -⟩ :=
    @ofSamples?_replicate hundred 8 finite nonzero (by decide) (by decide)
  have mean := exact fun k le => by
    have small : k * 100 ≤ 2 ^ 53 := by omega
    refine ⟨ofNat (k * 100), (units_count small).1, ?_⟩
    rw [hundred, value_count small, value_count (by decide), Nat.cast_mul]
  exact ⟨finite, nonzero, by decide, by decide, spread, run, mean, none mean⟩

/-- Eight times a tenth has a mean that is less, and so a deviation; twice the greatest number has a mean
and a deviation beyond it. -/
theorem exists_equal_samples_deviate :
    (∃ spread, ofSamples? (List.replicate 8 tenth) = some spread ∧ spread.mean = underTenth ∧
      eq spread.mean tenth = false ∧ lt zero spread.stdDev = true ∧
      lt zero spread.coefficientOfVariation = true) ∧
    ∃ spread, ofSamples? (List.replicate 2 greatest) = some spread ∧ spread.mean = infinity ∧
      spread.stdDev = infinity ∧ spread.coefficientOfVariation = nan := by
  constructor
  · obtain ⟨spread, run⟩ := @exists_ofSamples? (List.replicate 8 tenth) (by decide) (by decide)
    have deviation := stdDev_of_replicate run
    have mean : spread.mean = underTenth :=
      (mean_of_ofSamples? (pairwise_replicate 8 tenth) run).trans (by decide +kernel)
    rw [mean] at deviation
    refine ⟨spread, run, mean, ?_, ?_, ?_⟩
    · rw [mean]
      decide
    · rw [deviation]
      decide +kernel
    · rw [coefficientOfVariation, mean, deviation]
      decide +kernel
  · obtain ⟨spread, run⟩ := @exists_ofSamples? (List.replicate 2 greatest) (by decide) (by decide)
    obtain ⟨infinite, unbounded⟩ := infinite_of_overflow (show greatest.isFinite = true by decide)
      (by decide) run (by decide) (by decide +kernel)
    have mean : spread.mean = infinity :=
      (mean_of_ofSamples? (pairwise_replicate 2 greatest) run).trans (by decide +kernel)
    exact ⟨spread, run, mean, unbounded, coefficientOfVariation_of_infinite infinite unbounded⟩

end Spread

end BenchLog
