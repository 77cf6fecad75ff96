import BenchLog.Proofs.Binary64.Value
import BenchLog.Proofs.Stats.TrimmedMean

/-!
# How accurate the trimmed mean is

The trimmed mean of finite samples differs from the exact mean of the kept ones by no more than a step of
the last bit for each of them, wherever it is finite (`TrimmedMean.mean_accurate`). And it is finite
unless the exact mean comes as near to the end of the range: the shares, which are added up where the
samples overflow, leave the range at one addition, whose partial sum is near to that of the exact shares
(`lt_exactSum_of_overflow`); and since the samples behind it are few or as large, the exact mean is not
far from it (`lt_exactMean_of_front`). There the mean can be an infinity although no sample is
(`TrimmedMean.exists_mean_infinite`).
-/

namespace BenchLog

open Binary64

/-! ## Where the shares overflow -/

/-- What may be lost on so many shares up to the last addition. -/
def sharesLoss (count : Nat) (bound : ℚ) : ℚ :=
  (count - 1) ^ 2 * shareBound count bound / 2 ^ 53 + count * (1 / 2 + bound / count / 2 ^ 53)

theorem two_sharesLoss_le {n : Nat} {bound : ℚ} (several : 2 ≤ n) (few : n ≤ 2 ^ 50)
    (large : 2 ^ 105 ≤ bound) : 2 * sharesLoss n bound ≤ meanSlack n bound := by
  have several' : (2 : ℚ) ≤ n := by exact_mod_cast several
  have few' : (n : ℚ) ≤ 2 ^ 50 := by exact_mod_cast few
  unfold sharesLoss shareBound meanSlack
  generalize (n : ℚ) = count at *
  have pos : 0 < count := by linarith
  have expand : 2 * ((count - 1) ^ 2 * (bound / count + (1 / 2 + bound / count / 2 ^ 53)) / 2 ^ 53 +
      count * (1 / 2 + bound / count / 2 ^ 53)) =
      (count - 1) * bound / 2 ^ 52 + bound / count / 2 ^ 52 + (count - 1) ^ 2 / 2 ^ 53 +
        (count - 1) ^ 2 * (bound / count) / 2 ^ 105 + count := by
    field_simp
    ring
  have half : bound / count ≤ bound / 2 := by gcongr
  have square : (count - 1) ^ 2 ≤ 2 ^ 50 * count := by nlinarith
  have whole : (count - 1) ^ 2 * (bound / count) ≤ 2 ^ 50 * bound := by
    calc (count - 1) ^ 2 * (bound / count) ≤ 2 ^ 50 * count * (bound / count) := by gcongr
      _ = 2 ^ 50 * bound := by rw [mul_assoc, mul_div_cancel₀ _ pos.ne']
  rw [expand]
  linarith

/-- If rounded quotients by a count come, at the last addition, to more than a number, then so do the
exact quotients, with what the divisions and the additions before it lose. -/
theorem lt_exactSum_of_map {f : Binary64 → Binary64} {summed : List Binary64} {x : Binary64}
    {count share loss top : ℚ}
    (within : ∀ y ∈ summed.map f, |(y.signedUnits : ℚ)| ≤ share) (few : summed.length ≤ 2 ^ 53)
    (off : ∀ z ∈ summed ++ [x], |((f z).signedUnits : ℚ) - z.signedUnits / count| ≤ loss)
    (whole : (sum (summed.map f)).isFinite = true)
    (beyond : top < |((sum (summed.map f)).signedUnits : ℚ) + (f x).signedUnits|) :
    top < |(exactSum (summed ++ [x]) : ℚ) / count| +
      (summed.length ^ 2 * share / 2 ^ 53 + (summed.length + 1) * loss) := by
  have added := sum_error within (by rwa [List.length_map]) whole
  have divided := abs_exactSum_map_sub_le off
  rw [List.length_map] at added
  rw [List.map_append, List.map_singleton, exactSum_append, exactSum_singleton, List.length_append,
    List.length_singleton] at divided
  push_cast at divided
  generalize ((sum (summed.map f)).signedUnits : ℚ) = total at *
  generalize (exactSum (summed.map f) : ℚ) = exact at *
  generalize (exactSum (summed ++ [x]) : ℚ) / count = mean at *
  have parts : |total + (f x).signedUnits| ≤
      |total - exact| + |exact + (f x).signedUnits - mean| + |mean| := by
    calc |total + (f x).signedUnits| =
        |(total - exact) + (exact + (f x).signedUnits - mean) + mean| := by ring_nf
      _ ≤ _ := abs_add_three _ _ _
  linarith only [parts, beyond, added, divided]

section Overflow

variable {kept front rest : List Binary64} {bound : ℚ}
  (each : ∀ x ∈ kept, |(x.signedUnits : ℚ)| ≤ bound)

include each

/-- If the front of some samples, divided by the count of all, comes near a number that none of them
exceeds, then the samples behind it are few, and the mean of all comes as near. -/
theorem lt_exactMean_of_front {top loss : ℚ} (split : kept = front ++ rest) (pos : 0 < kept.length)
    (in_range : bound ≤ top) (beyond : top < |(exactSum front : ℚ) / kept.length| + loss) :
    top < |(exactSum kept : ℚ) / kept.length| + 2 * loss := by
  have pos' : (0 : ℚ) < kept.length := Nat.cast_pos.2 pos
  have size : (front.length : ℚ) + rest.length = kept.length := by
    rw [split, List.length_append, Nat.cast_add]
  have sums : (exactSum front : ℚ) = exactSum kept - exactSum rest := by
    rw [split, exactSum_append]
    push_cast
    ring
  have front_le := abs_exactSum_le fun z mem => each z (split ▸ List.mem_append_left _ mem)
  have rest_le := abs_exactSum_le fun z mem => each z (split ▸ List.mem_append_right _ mem)
  have few : |(exactSum front : ℚ) / kept.length| + rest.length * bound / kept.length ≤ bound := by
    rw [abs_div, Nat.abs_cast, ← add_div, div_le_iff₀ pos', ← size]
    linarith only [front_le]
  have near : |(exactSum front : ℚ) / kept.length| ≤
      |(exactSum kept : ℚ) / kept.length| + rest.length * bound / kept.length := by
    have parts := abs_sub (exactSum kept : ℚ) (exactSum rest)
    rw [abs_div, abs_div, Nat.abs_cast, ← add_div, div_le_div_iff_of_pos_right pos', sums]
    linarith only [rest_le, parts]
  linarith only [beyond, few, near, in_range]

variable {summed : List Binary64} {x : Binary64} (few : kept.length ≤ 2 ^ 53)
  (finite : ∀ x ∈ kept, x.isFinite = true)

include few finite

/-- Up to the addition where the shares overflow, no more is lost than on all of them. -/
theorem lt_exactSum_of_overflow (split : kept = summed ++ x :: rest) {top : ℚ}
    (whole : (sum (summed.map fun z => div z (ofNat kept.length))).isFinite = true)
    (beyond : top < |((sum (summed.map fun z => div z (ofNat kept.length))).signedUnits : ℚ) +
      (div x (ofNat kept.length)).signedUnits|) :
    top < |(exactSum (summed ++ [x]) : ℚ) / kept.length| + sharesLoss kept.length bound := by
  have inside : ∀ z ∈ summed ++ [x], z ∈ kept := fun z mem => by
    rw [split, ← List.singleton_append, ← List.append_assoc]
    exact List.mem_append_left _ mem
  have size : summed.length + 1 ≤ kept.length := by
    rw [split, List.length_append, List.length_cons]
    omega
  have within : ∀ y ∈ summed.map fun z => div z (ofNat kept.length),
      |(y.signedUnits : ℚ)| ≤ shareBound kept.length bound :=
    List.forall_mem_map.2 fun z mem => abs_share_le each few finite _
      (List.mem_map_of_mem (inside z (List.mem_append_left _ mem)))
  have near := lt_exactSum_of_map within (by omega)
    (fun z mem => share_error each few finite (inside z mem)) whole beyond
  have nonneg : 0 ≤ bound := (abs_nonneg _).trans (each x (inside x (by simp)))
  have size' : (summed.length : ℚ) + 1 ≤ kept.length := by exact_mod_cast size
  have before : (summed.length : ℚ) ≤ kept.length - 1 := by linarith only [size']
  refine near.trans_le (add_le_add_right (add_le_add ?adding ?dividing) _)
  case adding =>
    unfold shareBound
    gcongr
  case dividing => gcongr

variable (several : 2 ≤ kept.length)

include several

/-- If the sum of the samples overflows, and then that of the shares, then the exact mean, with what may
be lost, is beyond the greatest number. -/
theorem greatest_lt_exactMean (fewer : kept.length ≤ 2 ^ 50) (in_range : bound ≤ greatest.units)
    (overflow : (sum kept).isFinite = false) (overflow' : (sum (shares kept)).isFinite = false) :
    greatest.units < |(exactSum kept : ℚ) / kept.length| + meanSlack kept.length bound := by
  have large := large_of_overflow each several few finite overflow
  obtain ⟨before, y, after, split, whole, beyond⟩ :=
    exists_overflow (isFinite_share few finite) overflow'
  obtain ⟨summed, others, kept_eq, rfl, tail⟩ := List.map_eq_append_iff.1 split
  obtain ⟨x, rest, rfl, rfl, rfl⟩ := List.map_eq_cons_iff.1 tail
  have lost := lt_exactSum_of_overflow each few finite kept_eq whole beyond
  have near := lt_exactMean_of_front each (show kept = (summed ++ [x]) ++ rest by simp [kept_eq])
    (by omega) in_range lost
  have twice := two_sharesLoss_le several fewer large
  linarith only [near, twice]

end Overflow

/-! ## The trimmed mean -/

/-- The exact mean of finite numbers. -/
def exactMean (kept : List Binary64) : ℚ := (kept.map value).sum / kept.length

theorem exactMean_eq (kept : List Binary64) :
    exactMean kept = exactSum kept / kept.length / unitsPerOne := by
  have sums : (kept.map value).sum = (exactSum kept : ℚ) / unitsPerOne := by
    induction kept with
    | nil => rw [List.map_nil, List.sum_nil, exactSum_nil, Int.cast_zero, zero_div]
    | cons x kept ih =>
      rw [List.map_cons, List.sum_cons, ih, exactSum_cons, value]
      push_cast
      ring
  rw [exactMean, sums]
  ring

theorem abs_value (x : Binary64) : |x.value| = |(x.signedUnits : ℚ)| / unitsPerOne := by
  rw [value, abs_div, Nat.abs_cast]

/-- The slack of a mean, as a number. -/
theorem meanSlack_div (count : Nat) (bound : ℚ) :
    meanSlack count bound / unitsPerOne = count * (bound / unitsPerOne) / 2 ^ 52 + 1 / 2 ^ 1074 := by
  rw [meanSlack, add_div, div_right_comm, mul_div_assoc, ← cast_unitsPerOne]

theorem abs_signedUnits_le_greatest {x : Binary64} (finite : x.isFinite = true) :
    |(x.signedUnits : ℚ)| ≤ greatest.units := by
  have below : unitsOf x.magnitude ≤ unitsOf (infinityMagnitude - 1) :=
    strictMono_unitsOf.monotone (Nat.le_sub_one_of_lt (isFinite_iff.1 finite))
  have size : x.signedUnits.natAbs ≤ greatest.units := by rwa [natAbs_signedUnits]
  rw [← Int.cast_abs, Int.abs_eq_natAbs, Int.cast_natCast]
  exact Nat.cast_le.2 size

namespace TrimmedMean

variable {samples : List Binary64} {trimmed : TrimmedMean} {first last : Binary64}

/-- One of the two ends is a largest sample. -/
theorem exists_largest (head : trimmed.kept.head? = some first) (tail : trimmed.kept.getLast? = some last) :
    ∃ largest ∈ trimmed.kept, |(largest.signedUnits : ℚ)| = reach first last := by
  rcases le_total |(first.signedUnits : ℚ)| |(last.signedUnits : ℚ)| with le | le
  · exact ⟨last, List.mem_of_mem_getLast? tail, (max_eq_right le).symm⟩
  · exact ⟨first, List.mem_of_mem_head? head, (max_eq_left le).symm⟩

/-- Where the mean is an infinity, the sum overflows, and the exact mean is near the end of the range. -/
theorem greatest_lt_of_infinite (finite : ∀ x ∈ samples, x.isFinite = true)
    (few : samples.length ≤ 2 ^ 50 + 2) (run : ofSamples? samples = some trimmed)
    (head : trimmed.kept.head? = some first) (tail : trimmed.kept.getLast? = some last)
    (infinite : trimmed.mean.isFinite = false) :
    first.signedUnits ≠ last.signedUnits ∧ (sum trimmed.kept).isFinite = false ∧
      greatest.units < |(exactSum trimmed.kept : ℚ) / trimmed.kept.length| +
        meanSlack trimmed.kept.length (reach first last) := by
  have size := length_kept run
  obtain ⟨first_finite, last_finite⟩ := finite_ends finite run head tail
  rcases mean_cases run head tail with ⟨-, mean⟩ | ⟨-, total, mean⟩ | ⟨differ, overflow, mean⟩
  · rw [mean, first_finite] at infinite
    cases infinite
  · have whole := isFinite_div_ofNat total (List.length_pos_iff.2 (kept_ne_nil run)) (by omega)
    rw [mean, Spread.meanOf, whole] at infinite
    cases infinite
  · rw [mean] at infinite
    have in_range : reach first last ≤ greatest.units :=
      max_le (abs_signedUnits_le_greatest first_finite) (abs_signedUnits_le_greatest last_finite)
    refine ⟨fun same => ?_, overflow, greatest_lt_exactMean (abs_kept_le run head tail) (by omega)
      (finite_kept finite run) (two_le_length_kept finite run head tail differ) (by omega) in_range
      overflow infinite⟩
    rw [(eq_ends_iff finite run head tail).2 same] at differ
    cases differ

/-- The mean of finite samples is off by no more than the last bit of the largest kept one for each of
them, and a unit besides, if it is finite. It is finite if the kept samples are equal, if their sum is
finite, or if the exact mean stays as far away from the end of the range. -/
theorem mean_accurate {n : Nat} (finite : ∀ x ∈ samples, x.isFinite = true)
    (several : 1 ≤ n) (few : n < 2 ^ 50) (count : samples.length = n + 2) :
    ∃ trimmed, ofSamples? samples = some trimmed ∧ trimmed.kept.length = n ∧
      trimmed.mean.isNaN = false ∧
      ∃ largest ∈ trimmed.kept, (∀ x ∈ trimmed.kept, |x.value| ≤ |largest.value|) ∧
        (trimmed.mean.isFinite = true →
          |trimmed.mean.value - exactMean trimmed.kept| ≤
            n * |largest.value| / 2 ^ 52 + 1 / 2 ^ 1074) ∧
        (trimmed.mean.isFinite = false →
          (∃ x ∈ trimmed.kept, ∃ y ∈ trimmed.kept, x.value ≠ y.value) ∧
          (sum trimmed.kept).isFinite = false ∧
          greatest.value < |exactMean trimmed.kept| +
            (n * |largest.value| / 2 ^ 52 + 1 / 2 ^ 1074)) := by
  have one_pos := cast_unitsPerOne_pos
  have enough : 3 ≤ samples.length := by omega
  obtain ⟨trimmed, run⟩ := exists_ofSamples? enough
  have length : trimmed.kept.length = n := by
    have size := length_kept run
    omega
  have head := List.head?_eq_some_head (kept_ne_nil run)
  have tail := List.getLast?_eq_some_getLast (kept_ne_nil run)
  generalize trimmed.kept.head (kept_ne_nil run) = first at head
  generalize trimmed.kept.getLast (kept_ne_nil run) = last at tail
  obtain ⟨largest, mem, reached⟩ := exists_largest head tail
  have slack : n * |largest.value| / 2 ^ 52 + 1 / 2 ^ 1074 =
      meanSlack trimmed.kept.length (reach first last) / unitsPerOne := by
    rw [meanSlack_div, abs_value, reached, length]
  refine ⟨trimmed, run, length, isNaN_mean finite (by omega) run head tail, largest, mem,
    fun x x_mem => ?_, fun mean_finite => ?_, fun infinite => ?_⟩
  · rw [abs_value, abs_value, reached, div_le_div_iff_of_pos_right one_pos]
    exact abs_kept_le run head tail x x_mem
  · have off := mean_error finite (by omega) run head tail mean_finite
    rw [slack, exactMean_eq, value, ← sub_div, abs_div, Nat.abs_cast,
      div_le_div_iff_of_pos_right one_pos]
    exact off
  · obtain ⟨differ, overflow, beyond⟩ :=
      greatest_lt_of_infinite finite (by omega) run head tail infinite
    refine ⟨⟨first, List.mem_of_mem_head? head, last, List.mem_of_mem_getLast? tail, ?_⟩, overflow, ?_⟩
    · rw [value, value, ne_eq, div_left_inj' one_pos.ne', Int.cast_inj]
      exact differ
    · rw [slack, exactMean_eq, abs_div, Nat.abs_cast, ← add_div, value, signedUnits_eq,
        div_lt_div_iff_of_pos_right one_pos]
      exact beyond

/-- The mean of eight samples near a tenth is less than all of them, and off by less than the bound. -/
theorem mean_accurate_tenths :
    (∀ x ∈ tenths, x.isFinite = true) ∧ 1 ≤ 8 ∧ 8 < 2 ^ 50 ∧ tenths.length = 8 + 2 ∧
    ∃ trimmed, ofSamples? tenths = some trimmed ∧ trimmed.mean = underTenth ∧
      ∃ largest ∈ trimmed.kept, |underTenth.value - exactMean trimmed.kept| ≤
        (8 : Nat) * |largest.value| / 2 ^ 52 + 1 / 2 ^ 1074 := by
  have finite : ∀ x ∈ tenths, x.isFinite = true := by decide
  obtain ⟨trimmed, run, -, -, largest, mem, -, accurate, -⟩ :=
    mean_accurate finite (show 1 ≤ 8 by decide) (by decide) rfl
  obtain ⟨below, run', mean⟩ : ∃ trimmed, ofSorted? tenths = some trimmed ∧
      trimmed.mean = underTenth := ⟨_, rfl, by decide +kernel⟩
  have order : sorted tenths = tenths := sorted_eq_self (by decide)
  obtain rfl : below = trimmed := by
    rw [ofSamples?, order, run'] at run
    exact Option.some.inj run
  rw [mean] at accurate
  exact ⟨finite, by decide, by decide, rfl, below, run, mean, largest, mem, accurate (by decide)⟩

/-- The least finite number nine times, and the one after it twice. -/
def lowest : List Binary64 := (farthest.map neg).reverse

/-- The mean of nine finite samples can be an infinity. -/
theorem exists_mean_infinite : ∃ samples trimmed, samples.length = 9 + 2 ∧
    (∀ x ∈ samples, x.isFinite = true) ∧ ofSamples? samples = some trimmed ∧
    trimmed.mean = negativeInfinity := by
  have order : sorted lowest = lowest := sorted_eq_self (by decide)
  obtain ⟨trimmed, run, mean⟩ : ∃ trimmed, ofSorted? lowest = some trimmed ∧
      trimmed.mean = negativeInfinity := ⟨_, rfl, by decide +kernel⟩
  refine ⟨lowest, trimmed, rfl, by decide, ?_, mean⟩
  rw [ofSamples?, order, run]

end TrimmedMean

end BenchLog
