import BenchLog.Proofs.Stats.Means
import BenchLog.Proofs.Stats.Trimming

/-!
# The trimmed mean and its bracket

The trimmed mean of finite samples is off by no more than a step of the last bit for each kept sample
(`TrimmedMean.mean_error`). So it lies between the least and the greatest kept sample, or as little
outside as that; exactly between them if they are equal, or if their sum comes out exactly
(`TrimmedMean.mean_bracket`). It can be an infinity only where the kept samples reach the end of the
range (`TrimmedMean.isFinite_mean`), and there it can be one although no sample is
(`TrimmedMean.exists_mean_outside`).
-/

namespace BenchLog

open Binary64

/-- The greatest absolute value between two ends, in units. -/
def Binary64.reach (first last : Binary64) : ℚ :=
  max |(first.signedUnits : ℚ)| |(last.signedUnits : ℚ)|

/-! ## Samples in order -/

section Ordered

variable {kept : List Binary64} {first last : Binary64}
  (order : kept.Pairwise fun x y => totalLe x y = true)

include order

/-- All samples in order are within the reach of their ends. -/
theorem abs_le_reach (head : kept.head? = some first) (tail : kept.getLast? = some last)
    {x : Binary64} (mem : x ∈ kept) :
    |(x.signedUnits : ℚ)| ≤ reach first last := by
  have low : (first.signedUnits : ℚ) ≤ x.signedUnits := Int.cast_le.2 (first_le order head mem)
  have high : (x.signedUnits : ℚ) ≤ last.signedUnits := Int.cast_le.2 (le_last order tail mem)
  exact abs_le_max_abs_abs low high

/-- The exact mean lies between the ends. -/
theorem exactMean_between (head : kept.head? = some first) (tail : kept.getLast? = some last) :
    (first.signedUnits : ℚ) ≤ exactSum kept / kept.length ∧
      (exactSum kept : ℚ) / kept.length ≤ last.signedUnits := by
  have pos : (0 : ℚ) < kept.length :=
    Nat.cast_pos.2 (List.length_pos_of_mem (List.mem_of_mem_head? head))
  have low := List.card_nsmul_le_sum (kept.map signedUnits) first.signedUnits
    (List.forall_mem_map.2 fun x mem => first_le order head mem)
  have high := List.sum_le_card_nsmul (kept.map signedUnits) last.signedUnits
    (List.forall_mem_map.2 fun x mem => le_last order tail mem)
  rw [List.length_map, nsmul_eq_mul, mul_comm] at low high
  constructor
  · rw [le_div_iff₀ pos]
    exact_mod_cast low
  · rw [div_le_iff₀ pos]
    exact_mod_cast high

theorem exactSum_of_ends_eq (head : kept.head? = some first) (tail : kept.getLast? = some last)
    (same : first.signedUnits = last.signedUnits) :
    exactSum kept = kept.length * first.signedUnits := by
  have all : kept.map signedUnits = List.replicate kept.length first.signedUnits := by
    rw [List.eq_replicate_iff, List.length_map]
    refine ⟨rfl, List.forall_mem_map.2 fun x mem => ?_⟩
    have low := first_le order head mem
    have high := le_last order tail mem
    omega
  rw [exactSum, all, List.sum_replicate, nsmul_eq_mul]

end Ordered

/-- The double nearest to a tenth, and its neighbours. -/
def Binary64.tenth : Binary64 := ⟨false, 0x3FB999999999999A, by decide⟩
def Binary64.underTenth : Binary64 := ⟨false, 0x3FB9999999999999, by decide⟩
def Binary64.overTenth : Binary64 := ⟨false, 0x3FB999999999999B, by decide⟩

namespace TrimmedMean

variable {samples : List Binary64} {trimmed : TrimmedMean} {first last : Binary64}

/-- The three ways to a mean. -/
theorem mean_cases (run : ofSamples? samples = some trimmed)
    (head : trimmed.kept.head? = some first) (tail : trimmed.kept.getLast? = some last) :
    (eq first last = true ∧ trimmed.mean = first) ∨
    (eq first last = false ∧ (sum trimmed.kept).isFinite = true ∧
      trimmed.mean = Spread.meanOf trimmed.kept) ∨
    (eq first last = false ∧ (sum trimmed.kept).isFinite = false ∧
      trimmed.mean = sum (shares trimmed.kept)) := by
  obtain ⟨low, first', more, high, -, rfl⟩ := of_ofSorted? run
  obtain rfl : first' = first := Option.some.inj head
  obtain rfl : more.getLastD first' = last := by
    rw [List.getLast?_cons, Option.some.injEq] at tail
    rw [← tail, List.getLastD_eq_getLast?]
  dsimp only
  rw [meanOf]
  cases same : eq first' (more.getLastD first') with
  | true => exact Or.inl ⟨rfl, if_pos rfl⟩
  | false =>
    right
    cases total : (sum (first' :: more)).isFinite with
    | true => exact Or.inl ⟨rfl, rfl, by simp [total, Spread.meanOf]⟩
    | false => exact Or.inr ⟨rfl, rfl, by simp [total, shares]⟩

theorem mem_of_mem_kept (run : ofSamples? samples = some trimmed) {x : Binary64}
    (mem : x ∈ trimmed.kept) : x ∈ samples := by
  rw [← (sorted_perm samples).mem_iff, split_of_ofSamples? run]
  simp [mem]

theorem finite_kept (finite : ∀ x ∈ samples, x.isFinite = true)
    (run : ofSamples? samples = some trimmed) : ∀ x ∈ trimmed.kept, x.isFinite = true :=
  fun x mem => finite x (mem_of_mem_kept run mem)

theorem abs_kept_le (run : ofSamples? samples = some trimmed)
    (head : trimmed.kept.head? = some first) (tail : trimmed.kept.getLast? = some last) :
    ∀ x ∈ trimmed.kept, |(x.signedUnits : ℚ)| ≤ reach first last :=
  fun _ mem => abs_le_reach (pairwise_kept run) head tail mem

section Finite

variable (finite : ∀ x ∈ samples, x.isFinite = true) (few : samples.length ≤ 2 ^ 53)
  (run : ofSamples? samples = some trimmed)
  (head : trimmed.kept.head? = some first) (tail : trimmed.kept.getLast? = some last)

include finite run head tail

theorem finite_ends : first.isFinite = true ∧ last.isFinite = true :=
  ⟨finite_kept finite run first (List.mem_of_mem_head? head),
    finite_kept finite run last (List.mem_of_mem_getLast? tail)⟩

theorem eq_ends_iff : eq first last = true ↔ first.signedUnits = last.signedUnits := by
  obtain ⟨first_finite, last_finite⟩ := finite_ends finite run head tail
  exact eq_iff (isNaN_of_isFinite first_finite) (isNaN_of_isFinite last_finite)

/-- Different samples are at least two. -/
theorem two_le_length_kept (differ : eq first last = false) : 2 ≤ trimmed.kept.length := by
  obtain ⟨more, kept⟩ := List.head?_eq_some_iff.1 head
  rw [kept] at tail ⊢
  cases more with
  | nil =>
    have same := (eq_ends_iff finite run head (by rwa [kept])).2 (by cases tail; rfl)
    rw [differ] at same
    cases same
  | cons second more => simp

include few

/-- No way to a finite mean loses more than the slack. -/
theorem mean_error (mean_finite : trimmed.mean.isFinite = true) :
    |(trimmed.mean.signedUnits : ℚ) - exactSum trimmed.kept / trimmed.kept.length| ≤
      meanSlack trimmed.kept.length (reach first last) := by
  have size := length_kept run
  have few' : trimmed.kept.length ≤ 2 ^ 53 := by omega
  have each := abs_kept_le run head tail
  rcases mean_cases run head tail with ⟨same, mean⟩ | ⟨differ, total, mean⟩ | ⟨differ, overflow, mean⟩
  · have same' := (eq_ends_iff finite run head tail).1 same
    have count : (trimmed.kept.length : ℚ) ≠ 0 :=
      Nat.cast_ne_zero.2 (List.length_pos_iff.2 (kept_ne_nil run)).ne'
    rw [mean, exactSum_of_ends_eq (pairwise_kept run) head tail same']
    push_cast
    rw [mul_div_cancel_left₀ _ count, sub_self, abs_zero]
    unfold meanSlack reach
    positivity
  · rw [mean]
    exact meanOf_error each (two_le_length_kept finite run head tail differ) few' total
  · have several := two_le_length_kept finite run head tail differ
    rw [mean] at mean_finite ⊢
    exact sum_shares_error each several few' (finite_kept finite run)
      (large_of_overflow each several few' (finite_kept finite run) overflow) mean_finite

/-- The mean is finite if the sum is, or if the samples, with what may be lost, stay in range. -/
theorem isFinite_mean
    (in_range : (sum trimmed.kept).isFinite = true ∨
      reach first last + meanSlack trimmed.kept.length (reach first last) ≤ greatest.units) :
    trimmed.mean.isFinite = true := by
  have size := length_kept run
  have few' : trimmed.kept.length ≤ 2 ^ 53 := by omega
  have each := abs_kept_le run head tail
  rcases mean_cases run head tail with ⟨-, mean⟩ | ⟨-, total, mean⟩ | ⟨differ, overflow, mean⟩
  · rw [mean]
    exact (finite_ends finite run head tail).1
  · rw [mean]
    exact isFinite_div_ofNat total (List.length_pos_iff.2 (kept_ne_nil run)) few'
  · have several := two_le_length_kept finite run head tail differ
    rcases in_range with total | fits
    · rw [overflow] at total
      cases total
    · rw [mean]
      exact isFinite_sum_shares each several few' (finite_kept finite run)
        (large_of_overflow each several few' (finite_kept finite run) overflow) fits

theorem isNaN_mean : trimmed.mean.isNaN = false := by
  have size := length_kept run
  have few' : trimmed.kept.length ≤ 2 ^ 53 := by omega
  have pos := List.length_pos_iff.2 (kept_ne_nil run)
  rcases mean_cases run head tail with ⟨-, mean⟩ | ⟨-, total, mean⟩ | ⟨-, -, mean⟩
  · rw [mean]
    exact isNaN_of_isFinite (finite_ends finite run head tail).1
  · rw [mean]
    exact isNaN_of_isFinite (isFinite_div_ofNat total pos few')
  · rw [mean]
    exact isNaN_sum (isFinite_share few' (finite_kept finite run))

/-- Nothing is lost if the kept samples are equal, or if their sum comes out exactly. -/
theorem mean_between_of_exact
    (exact : eq first last = true ∨
      (sum trimmed.kept).isFinite = true ∧ (sum trimmed.kept).signedUnits = exactSum trimmed.kept) :
    first.signedUnits ≤ trimmed.mean.signedUnits ∧ trimmed.mean.signedUnits ≤ last.signedUnits := by
  have size := length_kept run
  have few' : trimmed.kept.length ≤ 2 ^ 53 := by omega
  have pos := List.length_pos_iff.2 (kept_ne_nil run)
  have order := pairwise_kept run
  obtain ⟨first_finite, last_finite⟩ := finite_ends finite run head tail
  rcases mean_cases run head tail with ⟨same, mean⟩ | ⟨differ, total, mean⟩ | ⟨differ, overflow, mean⟩
  · rw [mean]
    exact ⟨le_refl _, ((eq_ends_iff finite run head tail).1 same).le⟩
  · obtain ⟨-, sums⟩ := exact.resolve_left (by rw [differ]; exact Bool.false_ne_true)
    rw [mean]
    exact ⟨le_meanOf (isNaN_of_isFinite first_finite) pos few' total sums
        fun x mem => first_le order head mem,
      meanOf_le (isNaN_of_isFinite last_finite) pos few' total sums
        fun x mem => le_last order tail mem⟩
  · obtain ⟨total, -⟩ := exact.resolve_left (by rw [differ]; exact Bool.false_ne_true)
    rw [overflow] at total
    cases total

end Finite

/-- The mean of finite samples is a number. It lies between the second and the last but one of the
samples if these are equal, or if the sum comes out exactly; else it may lie outside, by no more
than the slack, and if it is not finite, then the sum is not, and the samples reach the end of the
range up to the slack. -/
theorem mean_bracket (finite : ∀ x ∈ samples, x.isFinite = true) (enough : 3 ≤ samples.length)
    (few : samples.length ≤ 2 ^ 53) :
    ∃ trimmed first last, ofSamples? samples = some trimmed ∧
      (sorted samples)[1]? = some first ∧ (sorted samples)[samples.length - 2]? = some last ∧
      trimmed.mean.isNaN = false ∧
      (eq first last = true ∨ (sum trimmed.kept).isFinite = true ∧
          (sum trimmed.kept).signedUnits = exactSum trimmed.kept →
        le first trimmed.mean = true ∧ le trimmed.mean last = true) ∧
      (trimmed.mean.isFinite = true →
        first.signedUnits - meanSlack trimmed.kept.length (reach first last) ≤
            (trimmed.mean.signedUnits : ℚ) ∧
          trimmed.mean.signedUnits ≤
            last.signedUnits + meanSlack trimmed.kept.length (reach first last)) ∧
      (trimmed.mean.isFinite = false → (sum trimmed.kept).isFinite = false ∧
        (greatest.units : ℚ) <
          reach first last + meanSlack trimmed.kept.length (reach first last)) := by
  obtain ⟨trimmed, run⟩ := exists_ofSamples? enough
  have head := List.head?_eq_some_head (kept_ne_nil run)
  have tail := List.getLast?_eq_some_getLast (kept_ne_nil run)
  generalize trimmed.kept.head (kept_ne_nil run) = first at head
  generalize trimmed.kept.getLast (kept_ne_nil run) = last at tail
  obtain ⟨first_finite, last_finite⟩ := finite_ends finite run head tail
  have number := isNaN_mean finite few run head tail
  refine ⟨trimmed, first, last, run, second_of_head? run head, lastButOne_of_getLast? run tail,
    number, fun exact => ?_, fun mean_finite => ?_, fun infinite => ?_⟩
  · rw [le_iff (isNaN_of_isFinite first_finite) number, le_iff number (isNaN_of_isFinite last_finite)]
    exact mean_between_of_exact finite few run head tail exact
  · obtain ⟨low, high⟩ := exactMean_between (pairwise_kept run) head tail
    have off := abs_le.1 (mean_error finite few run head tail mean_finite)
    constructor <;> linarith only [low, high, off.1, off.2]
  · have reached := mt (isFinite_mean finite few run head tail) (Bool.eq_false_iff.1 infinite)
    rw [not_or, not_le, Bool.not_eq_true] at reached
    exact reached

/-- The mean of 2 and 3 lies between them. -/
theorem mean_bracket_laps :
    (∀ x ∈ [ofNat 100, ofNat 2, ofNat 1, ofNat 3], x.isFinite = true) ∧
    ∃ trimmed, ofSamples? [ofNat 100, ofNat 2, ofNat 1, ofNat 3] = some trimmed ∧
      trimmed.kept = [ofNat 2, ofNat 3] ∧
      le (ofNat 2) trimmed.mean = true ∧ le trimmed.mean (ofNat 3) = true := by
  have finite : ∀ x ∈ [ofNat 100, ofNat 2, ofNat 1, ofNat 3], x.isFinite = true := by decide +kernel
  have order : sorted [ofNat 100, ofNat 2, ofNat 1, ofNat 3] =
      [ofNat 1, ofNat 2, ofNat 3, ofNat 100] :=
    (sorted_eq_of_perm (by decide +kernel)).trans (sorted_eq_self (by decide +kernel))
  obtain ⟨trimmed, first, last, run, second, lastButOne, -, exact, -⟩ :=
    mean_bracket finite (by decide) (by decide)
  have split := split_of_ofSamples? run
  rw [order] at split second lastButOne
  have kept : trimmed.kept = [ofNat 2, ofNat 3] :=
    List.append_inj_left' (List.cons.inj split).2.symm rfl
  obtain rfl : first = ofNat 2 := (Option.some.inj second).symm
  obtain rfl : last = ofNat 3 := (Option.some.inj lastButOne).symm
  refine ⟨finite, trimmed, run, kept, exact (Or.inr ?_)⟩
  rw [kept]
  decide +kernel

def tenths : List Binary64 := List.replicate 8 tenth ++ [overTenth, overTenth]

/-- The greatest number nine times, and the one before it twice. -/
def farthest : List Binary64 :=
  List.replicate 2 ⟨false, infinityMagnitude - 2, by decide⟩ ++ List.replicate 9 greatest

/-- The mean of ten finite samples can lie below all that are kept, and that of eleven can be an
infinity: both the sum and the sum of the shares overflow. -/
theorem exists_mean_outside :
    (∃ samples trimmed first, samples.length = 10 ∧ (∀ x ∈ samples, x.isFinite = true) ∧
      ofSamples? samples = some trimmed ∧ (sorted samples)[1]? = some first ∧
      trimmed.mean.isFinite = true ∧ le first trimmed.mean = false) ∧
    ∃ samples trimmed last, samples.length = 11 ∧ (∀ x ∈ samples, x.isFinite = true) ∧
      ofSamples? samples = some trimmed ∧ (sorted samples)[9]? = some last ∧
      trimmed.mean = infinity ∧ le trimmed.mean last = false := by
  have tenths_sorted : sorted tenths = tenths := sorted_eq_self (by decide)
  have farthest_sorted : sorted farthest = farthest := sorted_eq_self (by decide)
  obtain ⟨below, run, mean⟩ : ∃ trimmed, ofSorted? tenths = some trimmed ∧
      trimmed.mean = underTenth := ⟨_, rfl, by decide +kernel⟩
  obtain ⟨above, run', mean'⟩ : ∃ trimmed, ofSorted? farthest = some trimmed ∧
      trimmed.mean = infinity := ⟨_, rfl, by decide +kernel⟩
  refine ⟨⟨tenths, below, tenth, rfl, by decide, ?_, ?_, ?_, ?_⟩,
    farthest, above, greatest, rfl, by decide, ?_, ?_, mean', ?_⟩
  · rw [ofSamples?, tenths_sorted, run]
  · rw [tenths_sorted]
    rfl
  · rw [mean]
    decide
  · rw [mean]
    decide
  · rw [ofSamples?, farthest_sorted, run']
  · rw [farthest_sorted]
    rfl
  · rw [mean']
    decide

end TrimmedMean

end BenchLog
