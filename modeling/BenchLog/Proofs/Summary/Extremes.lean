import BenchLog.Proofs.Summary.Complete

/-!
# One sample is dropped at either end

Trimming takes one least and one greatest sample off, and nothing else is lost or changed: the dropped
samples enclose the kept ones, and together they are the samples, pattern by pattern. So the spread
of what is kept runs from the second to the last but one of all samples
(`MetricResult.trimmed_extremes`).
-/

namespace BenchLog

open Binary64

/-- The spread of samples in order runs from the first of them to the last. -/
theorem Spread.ends_of_ofSamples? {samples : List Binary64} {spread : Spread}
    (order : samples.Pairwise fun x y => totalLe x y = true)
    (run : ofSamples? samples = some spread) :
    samples.head? = some spread.min ∧ samples.getLast? = some spread.max := by
  obtain ⟨first, last, -⟩ := of_ofSamples? run
  rw [sorted_eq_self order] at first last
  exact ⟨first, last⟩

/-- Fewer than three samples are not trimmed, either way. Of more, both ways keep the same, one sample
is dropped at either end of the total order, and the spread of a result is that of the others. -/
theorem MetricResult.trimmed_extremes (samples : List Binary64) :
    (trimExtremes? samples = none ↔ samples.length < 3) ∧
    (TrimmedMean.ofSamples? samples = none ↔ samples.length < 3) ∧
    ∀ trimmed, TrimmedMean.ofSamples? samples = some trimmed →
      trimExtremes? samples = some trimmed.kept ∧
      (trimmed.droppedMin :: (trimmed.kept ++ [trimmed.droppedMax])).Pairwise
        (fun x y => totalLe x y = true) ∧
      (trimmed.droppedMin :: (trimmed.kept ++ [trimmed.droppedMax])).Perm samples ∧
      ∀ spec, (samples.length < UInt64.size → ∃ result, ofSeries ⟨spec, samples⟩ = .ok result) ∧
        ∀ result, ofSeries ⟨spec, samples⟩ = .ok result →
          result.droppedMin = trimmed.droppedMin ∧ result.droppedMax = trimmed.droppedMax ∧
          trimmed.kept.head? = some result.spread.min ∧
          trimmed.kept.getLast? = some result.spread.max ∧
          (sorted samples)[1]? = some result.spread.min ∧
          (sorted samples)[samples.length - 2]? = some result.spread.max ∧
          result.spread.count = samples.length - 2 := by
  refine ⟨trimExtremes?_eq_none_iff samples, TrimmedMean.ofSamples?_eq_none_iff samples,
    fun trimmed trims => ?_⟩
  have split := TrimmedMean.split_of_ofSamples? trims
  have size := TrimmedMean.length_kept trims
  refine ⟨TrimmedMean.trimExtremes?_of_ofSamples? trims, ?_, ?_, fun spec => ⟨?_, ?_⟩⟩
  · rw [← split]
    exact pairwise_sorted samples
  · rw [← split]
    exact sorted_perm samples
  · intro fits
    have nonempty := List.length_pos_iff.2 (TrimmedMean.kept_ne_nil trims)
    exact exists_ofSeries (show 3 ≤ samples.length by omega) fits
  · intro result run
    obtain ⟨trimmed', spread, trims', spreads, rfl⟩ := ofSeries_eq_ok_iff.1 run
    obtain rfl : trimmed = trimmed' := Option.some.inj (trims.symm.trans trims')
    obtain ⟨first, last⟩ := Spread.ends_of_ofSamples? (TrimmedMean.pairwise_kept trims) spreads
    refine ⟨rfl, rfl, first, last, TrimmedMean.second_of_head? trims first,
      TrimmedMean.lastButOne_of_getLast? trims last, ?_⟩
    show spread.count = samples.length - 2
    rw [Spread.count_of_ofSamples? spreads]
    omega

/-- Of two negative zeros one is dropped; the NaN above all numbers is dropped as well. -/
theorem MetricResult.trimmed_extremes_zeros :
    trimExtremes? [zero, negativeZero, nan, negativeZero, infinity] =
      some [negativeZero, zero, infinity] ∧
    ∃ result, ofSeries ⟨{ name := "ticks" }, [zero, negativeZero, nan, negativeZero, infinity]⟩ =
        .ok result ∧
      result.droppedMin = negativeZero ∧ result.droppedMax = nan ∧
      result.spread.min = negativeZero ∧ result.spread.max = infinity ∧ result.spread.count = 3 := by
  have order : sorted [zero, negativeZero, nan, negativeZero, infinity] =
      [negativeZero, negativeZero, zero, infinity, nan] :=
    (sorted_eq_of_perm (by decide)).trans (sorted_eq_self (by decide))
  obtain ⟨-, enough, splits⟩ := trimmed_extremes [zero, negativeZero, nan, negativeZero, infinity]
  obtain ⟨trimmed, trims⟩ := Option.ne_none_iff_exists'.1 fun none => absurd (enough.1 none) (by decide)
  obtain ⟨-, -, -, results⟩ := splits trimmed trims
  have split := TrimmedMean.split_of_ofSamples? trims
  obtain ⟨exists_result, ends⟩ := results { name := "ticks" }
  obtain ⟨result, run⟩ := exists_result (by decide)
  obtain ⟨low, high, -, -, second, lastButOne, count⟩ := ends result run
  rw [order] at split second lastButOne
  have greatest := congrArg List.getLast? split
  rw [← List.cons_append, List.getLast?_concat] at greatest
  refine ⟨?_, result, run, low.trans (List.cons.inj split).1.symm,
    high.trans (Option.some.inj greatest).symm, (Option.some.inj second).symm,
    (Option.some.inj lastButOne).symm, count⟩
  rw [trimExtremes?, order]
  rfl

end BenchLog
