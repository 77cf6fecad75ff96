import BenchLog.Proofs.Stats.EqualSamples
import BenchLog.Proofs.Summary.Complete

/-!
# Two means of the kept samples

A result holds a trimmed mean, and its spread holds the mean of the same kept samples. Both are the sum
over the count, and so the same double, unless the samples are equal or their sum overflows
(`MetricResult.mean_eq_spread_mean`). Of equal samples the trimmed mean is one of them, while the mean
of the spread is rounded with each addition. Where the sum overflows, the spread has no other way to
a mean. So the two can be different numbers (`MetricResult.exists_means_differ`).
-/

namespace BenchLog

open Binary64

namespace Binary64

theorem eq_eq_false_of_isInfinite {x y : Binary64} (finite : x.isFinite = true)
    (infinite : y.isInfinite = true) : eq x y = false := by
  have x_small := isFinite_iff.1 finite
  have y_end : y.magnitude = infinityMagnitude := of_decide_eq_true infinite
  have apart : x.level ≠ y.level := by
    unfold level
    split_ifs <;> omega
  simp [eq, apart]

end Binary64

namespace MetricResult

/-- The two means of a result, by what is kept. -/
theorem exists_means {series : Series} {trimmed : TrimmedMean}
    (trims : TrimmedMean.ofSamples? series.samples = some trimmed)
    (few : series.samples.length ≤ 2 ^ 53) :
    ∃ result, ofSeries series = .ok result ∧ result.mean = trimmed.mean ∧
      result.spread.mean = Spread.meanOf trimmed.kept := by
  have size := TrimmedMean.length_kept trims
  have some_kept := List.length_pos_iff.2 (TrimmedMean.kept_ne_nil trims)
  obtain ⟨result, run⟩ := exists_ofSeries (show 3 ≤ series.samples.length by omega)
    (show series.samples.length < 2 ^ 64 by omega)
  obtain ⟨trimmed', spread, trims', spreads, rfl⟩ := ofSeries_eq_ok_iff.1 run
  obtain rfl : trimmed = trimmed' := Option.some.inj (trims.symm.trans trims')
  exact ⟨_, run, rfl, Spread.mean_of_ofSamples? (TrimmedMean.pairwise_kept trims) spreads⟩

/-- The two means of a result of finite samples: the same double if the kept samples differ and their
sum is finite; numbers within the slack if they are equal, the same if their sum comes out exactly;
different numbers if the sum overflows and the trimmed mean does not. -/
theorem mean_eq_spread_mean {series : Series}
    (finite : ∀ x ∈ series.samples, x.isFinite = true) (enough : 3 ≤ series.samples.length)
    (few : series.samples.length ≤ 2 ^ 53) :
    ∃ result kept first last, ofSeries series = .ok result ∧
      trimExtremes? series.samples = some kept ∧
      kept.head? = some first ∧ kept.getLast? = some last ∧
      ((sum kept).isFinite = true → eq first last = false → result.mean = result.spread.mean) ∧
      ((sum kept).isFinite = true → eq first last = true → result.mean = first ∧
        |(result.spread.mean.signedUnits : ℚ) - result.mean.signedUnits| ≤
          meanSlack kept.length (reach first last) ∧
        ((sum kept).signedUnits = exactSum kept → eq result.mean result.spread.mean = true)) ∧
      ((sum kept).isFinite = false → result.spread.mean.isInfinite = true ∧
        (result.mean.isFinite = true → eq result.mean result.spread.mean = false)) := by
  obtain ⟨trimmed, trims⟩ := TrimmedMean.exists_ofSamples? enough
  obtain ⟨result, run, mean, spread_mean⟩ := exists_means trims few
  have head := List.head?_eq_some_head (TrimmedMean.kept_ne_nil trims)
  have tail := List.getLast?_eq_some_getLast (TrimmedMean.kept_ne_nil trims)
  generalize trimmed.kept.head (TrimmedMean.kept_ne_nil trims) = first at head
  generalize trimmed.kept.getLast (TrimmedMean.kept_ne_nil trims) = last at tail
  have order := TrimmedMean.pairwise_kept trims
  have size := TrimmedMean.length_kept trims
  have few' : trimmed.kept.length ≤ 2 ^ 53 := by omega
  have kept_finite := TrimmedMean.finite_kept finite trims
  have ways := TrimmedMean.mean_cases trims head tail
  rw [← mean] at ways
  refine ⟨result, trimmed.kept, first, last, run, TrimmedMean.trimExtremes?_of_ofSamples? trims, head,
    tail, ?_, ?_, ?_⟩
  all_goals rw [spread_mean]
  · intro total differ
    rcases ways with ⟨same, -⟩ | ⟨-, -, way⟩ | ⟨-, overflow, -⟩
    · rw [differ] at same
      cases same
    · exact way
    · rw [total] at overflow
      cases overflow
  · intro total same
    obtain way : result.mean = first := by
      rcases ways with ⟨-, way⟩ | ⟨differ, -⟩ | ⟨differ, -⟩
      · exact way
      all_goals
        rw [same] at differ
        cases differ
    have equal := (TrimmedMean.eq_ends_iff finite trims head tail).1 same
    rw [way]
    refine ⟨rfl, Spread.meanOf_error_of_equal order kept_finite few' head tail equal total,
      fun exact => ?_⟩
    have first_number := isNaN_of_isFinite (TrimmedMean.finite_ends finite trims head tail).1
    have mean_number : (Spread.meanOf trimmed.kept).isNaN = false :=
      isNaN_of_isFinite (isFinite_div_ofNat total (by omega) few')
    rw [eq_iff first_number mean_number,
      Spread.signedUnits_meanOf_of_exact order kept_finite few' head tail equal total exact]
  · intro overflow
    have infinite := Spread.isInfinite_meanOf kept_finite few' overflow
    exact ⟨infinite, fun mean_finite => eq_eq_false_of_isInfinite mean_finite infinite⟩

/-- Of ten times the same, the trimmed mean is that, and the mean of the spread is close to it. -/
theorem mean_eq_spread_mean_tenths :
    (∀ x ∈ List.replicate 10 tenth, x.isFinite = true) ∧
    ∃ result, ofSeries ⟨{ name := "ticks" }, List.replicate 10 tenth⟩ = .ok result ∧
      result.mean = tenth ∧
      |(result.spread.mean.signedUnits : ℚ) - result.mean.signedUnits| ≤
        meanSlack 8 (reach tenth tenth) := by
  have finite : ∀ x ∈ List.replicate 10 tenth, x.isFinite = true := by decide
  have order : sorted (List.replicate 10 tenth) = List.replicate 10 tenth :=
    sorted_eq_self (by decide)
  obtain ⟨result, kept, first, last, run, keeps, head, tail, -, equal, -⟩ :=
    @mean_eq_spread_mean ⟨{ name := "ticks" }, List.replicate 10 tenth⟩ finite (by decide)
      (by decide)
  rw [trimExtremes?, order] at keeps
  obtain rfl : List.replicate 8 tenth = kept := Option.some.inj keeps
  obtain rfl : tenth = first := Option.some.inj head
  obtain rfl : tenth = last := Option.some.inj tail
  obtain ⟨mean, near, -⟩ := equal (by decide +kernel) (by decide)
  exact ⟨finite, result, run, mean, near⟩

/-- The means differ for ten times a tenth, and where the sum of two kept samples overflows. -/
theorem exists_means_differ :
    (∃ result, ofSeries ⟨{ name := "ticks" }, List.replicate 10 tenth⟩ = .ok result ∧
      result.mean = tenth ∧ result.spread.mean = underTenth ∧
      eq result.mean result.spread.mean = false) ∧
    ∃ samples result, samples.length = 4 ∧ (∀ x ∈ samples, x.isFinite = true) ∧
      ofSeries ⟨{ name := "ticks" }, samples⟩ = .ok result ∧ result.mean.isFinite = true ∧
      result.spread.mean = infinity ∧ eq result.mean result.spread.mean = false := by
  have order : sorted (List.replicate 10 tenth) = List.replicate 10 tenth :=
    sorted_eq_self (by decide)
  have order' : sorted [zero, greatest, greatest, greatest] = [zero, greatest, greatest, greatest] :=
    sorted_eq_self (by decide)
  constructor
  · obtain ⟨result, run, mean, spread_mean⟩ := @exists_means
      ⟨{ name := "ticks" }, List.replicate 10 tenth⟩ _ (by rw [TrimmedMean.ofSamples?, order]; rfl)
      (by decide)
    have mean' : result.mean = tenth := mean.trans (by decide +kernel)
    have spread_mean' : result.spread.mean = underTenth := spread_mean.trans (by decide +kernel)
    refine ⟨result, run, mean', spread_mean', ?_⟩
    rw [mean', spread_mean']
    decide
  · obtain ⟨result, run, mean, spread_mean⟩ := @exists_means
      ⟨{ name := "ticks" }, [zero, greatest, greatest, greatest]⟩ _
      (by rw [TrimmedMean.ofSamples?, order']; rfl) (by decide)
    have mean' : result.mean = greatest := mean.trans (by decide +kernel)
    have spread_mean' : result.spread.mean = infinity := spread_mean.trans (by decide +kernel)
    refine ⟨_, result, rfl, by decide, run, ?_, spread_mean', ?_⟩
    · rw [mean']
      decide
    · rw [mean', spread_mean']
      decide

end MetricResult

end BenchLog
