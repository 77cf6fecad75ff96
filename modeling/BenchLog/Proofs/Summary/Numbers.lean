import BenchLog.Proofs.Report.Numbers
import BenchLog.Proofs.Stats.Deviations
import BenchLog.Proofs.Stats.Percentiles
import BenchLog.Proofs.Stats.TrimmedMean
import BenchLog.Proofs.Summary.Complete

/-!
# No NaN from finite samples

Sums, distances and squares of finite samples can overflow, but then they are infinities that meet no
infinity of the other sign and are multiplied by no zero. So every figure of the spread of finite
samples is a number (`Spread.isNaN_of_mem_numbers`), and so is every figure of their result
(`MetricResult.ofSeries_numbers`). The standard deviation is not negative.
-/

namespace BenchLog

open Binary64

namespace Spread

variable {samples : List Binary64} {spread : Spread} (finite : ∀ x ∈ samples, x.isFinite = true)
  (few : samples.length ≤ 2 ^ 53) (run : ofSamples? samples = some spread)

include finite few run

theorem isNaN_mean : spread.mean.isNaN = false := by
  obtain ⟨head, -, -, mean, -⟩ := of_ofSamples? run
  have pos : 0 < samples.length := List.length_pos_of_mem (least_mem head)
  have ascending : ∀ x ∈ sorted samples, x.isFinite = true :=
    fun x mem => finite x ((sorted_perm samples).mem_iff.1 mem)
  rw [mean, meanOf, length_sorted]
  exact (div_number (isNaN_sum ascending) (units_count few).1 (isZero_count pos few)).1

theorem isUnsigned_stdDev_of_ofSamples? : IsUnsigned spread.stdDev := by
  rw [stdDev_of_ofSamples? run]
  exact isUnsigned_stdDev (fun x mem => finite x ((sorted_perm samples).mem_iff.1 mem))
    (by rwa [length_sorted]) (isNaN_mean finite few run)

theorem isNaN_median : spread.p50.isNaN = false := by
  obtain ⟨head, tail, median, -⟩ := of_ofSamples? run
  rw [percentile?_sorted] at median
  obtain ⟨value, found, above, -⟩ := exists_percentile head tail finite few isPercentage_fifty
  obtain rfl : spread.p50 = value := Option.some.inj (median.symm.trans found)
  simp only [le, Bool.and_eq_true, Bool.not_eq_true'] at above
  exact above.1.2

theorem isNaN_of_mem_numbers : ∀ x ∈ spread.numbers, x.isNaN = false := by
  obtain ⟨head, tail, -⟩ := of_ofSamples? run
  simp only [numbers, List.forall_mem_cons]
  exact ⟨isNaN_of_isFinite (finite _ (least_mem head)), isNaN_median finite few run,
    isNaN_of_isFinite (finite _ (last_mem tail)), isNaN_mean finite few run,
    (isUnsigned_stdDev_of_ofSamples? finite few run).number, List.forall_mem_nil _⟩

end Spread

namespace MetricResult

/-- A series of finite samples has a result, in which every figure is a number, also where sums,
distances or squares overflow, and the standard deviation is not negative. -/
theorem ofSeries_numbers {series : Series} (finite : ∀ x ∈ series.samples, x.isFinite = true)
    (enough : 3 ≤ series.samples.length) (few : series.samples.length < 2 ^ 53) :
    ∃ result, ofSeries series = .ok result ∧ (∀ x ∈ result.numbers, x.isNaN = false) ∧
      le zero result.spread.stdDev = true ∧ result.spread.stdDev.negative = false := by
  obtain ⟨result, run⟩ := exists_ofSeries enough (few.trans (by decide))
  obtain ⟨trimmed, spread, trims, spreads, rfl⟩ := ofSeries_eq_ok_iff.1 run
  have size := TrimmedMean.length_kept trims
  have kept_finite := TrimmedMean.finite_kept finite trims
  have head := List.head?_eq_some_head (TrimmedMean.kept_ne_nil trims)
  have tail := List.getLast?_eq_some_getLast (TrimmedMean.kept_ne_nil trims)
  have mean := TrimmedMean.isNaN_mean finite few.le trims head tail
  have deviation := Spread.isUnsigned_stdDev_of_ofSamples? kept_finite (by omega) spreads
  have dropped : ∀ x ∈ [trimmed.droppedMin, trimmed.droppedMax], x.isFinite = true := by
    intro x mem
    refine finite x ((sorted_perm series.samples).mem_iff.1 ?_)
    rw [TrimmedMean.split_of_ofSamples? trims]
    rcases List.mem_pair.1 mem with rfl | rfl <;> simp
  refine ⟨_, run, ?_, ?_, deviation.sign⟩
  · simp only [numbers, List.forall_mem_append, List.forall_mem_cons]
    exact ⟨⟨⟨mean, isNaN_of_isFinite (dropped _ (by simp)), isNaN_of_isFinite (dropped _ (by simp)),
      List.forall_mem_nil _⟩, Spread.isNaN_of_mem_numbers kept_finite (by omega) spreads⟩,
      fun x mem => isNaN_of_isFinite (finite x mem)⟩
  · rw [le_iff (by decide) deviation.number]
    exact deviation.nonneg

/-- The distance of two opposite numbers overflows, and so do the squares of their deviations: median
and standard deviation are infinities. -/
theorem ofSeries_numbers_farthest :
    (∀ x ∈ [greatest.neg, greatest.neg, greatest, greatest], x.isFinite = true) ∧
    ∃ result, ofSeries ⟨{ name := "ticks" }, [greatest.neg, greatest.neg, greatest, greatest]⟩ =
        .ok result ∧
      (∀ x ∈ result.numbers, x.isNaN = false) ∧ le zero result.spread.stdDev = true ∧
      result.spread.p50 = infinity ∧ result.spread.stdDev = infinity := by
  have finite : ∀ x ∈ [greatest.neg, greatest.neg, greatest, greatest], x.isFinite = true := by decide
  obtain ⟨result, run, numbers, nonneg, -⟩ :=
    @ofSeries_numbers ⟨{ name := "ticks" }, [greatest.neg, greatest.neg, greatest, greatest]⟩ finite
      (by decide) (by decide)
  refine ⟨finite, result, run, numbers, nonneg, ?_⟩
  have order : sorted [greatest.neg, greatest.neg, greatest, greatest] =
      [greatest.neg, greatest.neg, greatest, greatest] := sorted_eq_self (by decide)
  have order' : sorted [greatest.neg, greatest] = [greatest.neg, greatest] :=
    sorted_eq_self (by decide)
  obtain ⟨trimmed, spread, trims, spreads, rfl⟩ := ofSeries_eq_ok_iff.1 run
  rw [TrimmedMean.ofSamples?, order] at trims
  obtain rfl := Option.some.inj trims
  obtain ⟨-, -, median, mean, -⟩ := Spread.of_ofSamples? spreads
  have deviation := Spread.stdDev_of_ofSamples? spreads
  rw [mean] at deviation
  dsimp only [List.dropLast] at median deviation ⊢
  rw [order'] at median deviation
  have far : percentile? [greatest.neg, greatest] (ofNat 50) = some infinity := by
    rw [percentile?, order']
    decide +kernel
  have wide : sqrt (Spread.varianceOf [greatest.neg, greatest]
      (Spread.meanOf [greatest.neg, greatest])) = infinity := by decide +kernel
  exact ⟨Option.some.inj (median.symm.trans far), deviation.trans wide⟩

end MetricResult

end BenchLog
