import BenchLog.Proofs.Summary.Complete
import Mathlib.Data.List.Perm.Basic

/-!
# One outlier at either end

The sample that is dropped at an end does not get into anything else: a sample above all others may be
any other that is, and so may a sample below all others (`MetricResult.ofSeries_replace_greatest`,
`MetricResult.ofSeries_replace_least`). Patterns that are not finite stand beyond all finite numbers
(`Binary64.exists_finite_end`), so one of them among finite samples does not touch the mean
(`MetricResult.ofSeries_outlier`).
-/

namespace BenchLog

open Binary64

/-- A pattern that is not finite is above all finite numbers or below them, as one of these is. -/
theorem Binary64.exists_finite_end {x : Binary64} (beyond : x.isFinite = false) :
    ∃ y, y.isFinite = true ∧
      ((∀ z, z.isFinite = true → totalLe z x = true ∧ totalLe z y = true) ∨
        ∀ z, z.isFinite = true → totalLe x z = true ∧ totalLe y z = true) := by
  have far : infinityMagnitude ≤ x.magnitude := Nat.le_of_not_lt (of_decide_eq_false beyond)
  have inside {z : Binary64} (finite : z.isFinite = true) :
      z.magnitude ≤ x.magnitude ∧ z.magnitude ≤ infinityMagnitude - 1 := by
    have less := isFinite_iff.1 finite
    exact ⟨by omega, Nat.le_sub_one_of_lt less⟩
  cases sign : x.negative with
  | false =>
    refine ⟨⟨false, infinityMagnitude - 1, by decide⟩, by decide, Or.inl fun z finite => ?_⟩
    exact ⟨totalLe_of_positive sign (inside finite).1, totalLe_of_positive rfl (inside finite).2⟩
  | true =>
    refine ⟨⟨true, infinityMagnitude - 1, by decide⟩, by decide, Or.inr fun z finite => ?_⟩
    exact ⟨totalLe_of_negative sign (inside finite).1, totalLe_of_negative rfl (inside finite).2⟩

namespace MetricResult

section OneSample

variable {spec : MetricSpec} {samples samples' others : List Binary64} {x x' : Binary64}
  {result : MetricResult} (run : ofSeries ⟨spec, samples⟩ = .ok result)
  (same : samples.Perm (x :: others)) (same' : samples'.Perm (x' :: others))

include run same same'

theorem ofSeries_replace_greatest (above : ∀ y ∈ others, totalLe y x = true)
    (above' : ∀ y ∈ others, totalLe y x' = true) :
    ofSeries ⟨spec, samples'⟩ = .ok { result with droppedMax := x', samples := samples' } := by
  obtain ⟨trimmed, spread, trims, spreads, rfl⟩ := ofSeries_eq_ok_iff.1 run
  exact ofSeries_eq_ok_iff.2 ⟨_, spread,
    TrimmedMean.ofSamples?_replace_greatest trims same same' above above', spreads, rfl⟩

theorem ofSeries_replace_least (below : ∀ y ∈ others, totalLe x y = true)
    (below' : ∀ y ∈ others, totalLe x' y = true) :
    ofSeries ⟨spec, samples'⟩ = .ok { result with droppedMin := x', samples := samples' } := by
  obtain ⟨trimmed, spread, trims, spreads, rfl⟩ := ofSeries_eq_ok_iff.1 run
  exact ofSeries_eq_ok_iff.2 ⟨_, spread,
    TrimmedMean.ofSamples?_replace_least trims same same' below below', spreads, rfl⟩

end OneSample

/-- A greatest sample of a series may be replaced by any pattern that is not below it, and a least by
any that is not above it: that is what is dropped then, and nothing else in the result changes. And if
all samples but one are finite, the mean is that of a series of finite samples. -/
theorem ofSeries_outlier (spec : MetricSpec) (samples : List Binary64)
    (enough : 3 ≤ samples.length) :
    (samples.length < UInt64.size → ∃ result, ofSeries ⟨spec, samples⟩ = .ok result) ∧
      ∀ result, ofSeries ⟨spec, samples⟩ = .ok result →
      ∀ (i : Nat) (inside : i < samples.length),
        (∀ v, (∀ x ∈ samples, totalLe x samples[i] = true) → totalLe samples[i] v = true →
          ofSeries ⟨spec, samples.set i v⟩ =
            .ok { result with droppedMax := v, samples := samples.set i v }) ∧
        (∀ v, (∀ x ∈ samples, totalLe samples[i] x = true) → totalLe v samples[i] = true →
          ofSeries ⟨spec, samples.set i v⟩ =
            .ok { result with droppedMin := v, samples := samples.set i v }) ∧
        ((∀ x ∈ samples.eraseIdx i, x.isFinite = true) → ∃ y, y.isFinite = true ∧
          ∃ result', ofSeries ⟨spec, samples.set i y⟩ = .ok result' ∧
            result'.mean = result.mean) := by
  refine ⟨fun fits => exists_ofSeries enough fits, fun result run i inside => ?_⟩
  have same := (List.getElem_cons_eraseIdx_perm inside).symm
  have replaced := List.set_perm_cons_eraseIdx inside
  have sample {x : Binary64} (mem : x ∈ samples.eraseIdx i) : x ∈ samples :=
    List.mem_of_mem_eraseIdx mem
  refine ⟨fun v greatest above => ?_, fun v least below => ?_, fun finite => ?_⟩
  · exact ofSeries_replace_greatest run same (replaced v) (fun y mem => greatest y (sample mem))
      fun y mem => totalLe_trans _ _ _ (greatest y (sample mem)) above
  · exact ofSeries_replace_least run same (replaced v) (fun y mem => least y (sample mem))
      fun y mem => totalLe_trans _ _ _ below (least y (sample mem))
  · cases bounded : samples[i].isFinite with
    | true =>
      refine ⟨samples[i], bounded, result, ?_, rfl⟩
      rwa [List.set_getElem_self]
    | false =>
      obtain ⟨y, y_finite, above | below⟩ := exists_finite_end bounded
      · exact ⟨y, y_finite, _, ofSeries_replace_greatest run same (replaced y)
          (fun z mem => (above z (finite z mem)).1) (fun z mem => (above z (finite z mem)).2), rfl⟩
      · exact ⟨y, y_finite, _, ofSeries_replace_least run same (replaced y)
          (fun z mem => (below z (finite z mem)).1) (fun z mem => (below z (finite z mem)).2), rfl⟩

/-- The greatest of these samples is not a number, and the least is a zero. -/
def oddLaps : List Binary64 := [ofNat 2, nan, negativeZero, ofNat 5]

/-- The last pattern of the total order, a NaN. -/
def topNaN : Binary64 := ⟨false, magnitudeLimit - 1, by decide⟩

theorem ofSeries_outlier_oddLaps :
    (3 ≤ oddLaps.length ∧ (∀ x ∈ oddLaps, totalLe x nan = true) ∧ totalLe nan topNaN = true ∧
      (∀ x ∈ oddLaps, totalLe negativeZero x = true) ∧
      totalLe negativeInfinity negativeZero = true ∧
      ∀ x ∈ oddLaps.eraseIdx 1, x.isFinite = true) ∧
    ∃ result, ofSeries ⟨{ name := "ticks" }, oddLaps⟩ = .ok result ∧
      ofSeries ⟨{ name := "ticks" }, [ofNat 2, topNaN, negativeZero, ofNat 5]⟩ =
        .ok { result with
          droppedMax := topNaN, samples := [ofNat 2, topNaN, negativeZero, ofNat 5] } ∧
      ofSeries ⟨{ name := "ticks" }, [ofNat 2, nan, negativeInfinity, ofNat 5]⟩ =
        .ok { result with
          droppedMin := negativeInfinity, samples := [ofNat 2, nan, negativeInfinity, ofNat 5] } ∧
      ∃ y, y.isFinite = true ∧ ∃ result',
        ofSeries ⟨{ name := "ticks" }, [ofNat 2, y, negativeZero, ofNat 5]⟩ = .ok result' ∧
          result'.mean = result.mean := by
  have greatest : ∀ x ∈ oddLaps, totalLe x nan = true := by decide +kernel
  have least : ∀ x ∈ oddLaps, totalLe negativeZero x = true := by decide +kernel
  have finite : ∀ x ∈ oddLaps.eraseIdx 1, x.isFinite = true := by decide +kernel
  have above : totalLe nan topNaN = true := by decide
  have below : totalLe negativeInfinity negativeZero = true := by decide
  refine ⟨⟨by decide, greatest, above, least, below, finite⟩, ?_⟩
  obtain ⟨exist, replaced⟩ := ofSeries_outlier { name := "ticks" } oddLaps (by decide)
  obtain ⟨result, run⟩ := exist (by decide)
  have each := replaced result run
  exact ⟨result, run, (each 1 (by decide)).1 topNaN greatest above,
    (each 2 (by decide)).2.1 negativeInfinity least below, (each 1 (by decide)).2.2 finite⟩

end MetricResult

end BenchLog
