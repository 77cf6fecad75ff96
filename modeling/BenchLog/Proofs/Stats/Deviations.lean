import BenchLog.Proofs.Binary64.Unsigned
import BenchLog.Proofs.Stats.Means
import BenchLog.Proofs.Stats.Median

/-!
# Standard deviations

The deviation of a finite sample from a mean that is a number is a number, even if the mean is an
infinity, and its square is not negative. So neither is the standard deviation
(`Spread.isUnsigned_stdDev`). Samples that are all equal to their mean have none
(`Spread.stdDev_of_equal`), and from a mean that overflows it is infinite (`Spread.stdDev_of_infinite`).
-/

namespace BenchLog

open Binary64

namespace Binary64

theorem isUnsigned_count {n : Nat} (few : n ≤ 2 ^ 53) : IsUnsigned (ofNat n) :=
  ⟨isNaN_of_isFinite (units_count few).1, rfl⟩

theorem isUnsigned_div_count {x : Binary64} {n : Nat} (unsigned : IsUnsigned x) (pos : 0 < n)
    (few : n ≤ 2 ^ 53) : IsUnsigned (div x (ofNat n)) :=
  unsigned.div (isUnsigned_count few) (units_count few).1 (isZero_count pos few)

/-- A number that is its own double is any sum of itself. -/
theorem sum_eq_of_stable {xs : List Binary64} {x : Binary64} (number : x.isNaN = false)
    (stable : add x x = x) (nonempty : xs ≠ []) (each : ∀ y ∈ xs, y = x) : sum xs = x := by
  induction xs using List.reverseRecOn with
  | nil => exact absurd rfl nonempty
  | append_singleton xs last ih =>
    rw [sum_concat, each last (by simp)]
    cases xs with
    | nil => exact negativeZero_add number
    | cons first more =>
      rw [ih (List.cons_ne_nil first more) fun y mem => each y (List.mem_append_left _ mem), stable]

theorem self_sub {x : Binary64} (finite : x.isFinite = true) : sub x x = zero := by
  have opposite : x.neg.isFinite = true := finite
  rw [sub, add_of_finite finite opposite, signedUnits_neg, Int.add_right_neg,
    show x.neg.negative = !x.negative from rfl, Bool.and_not_self]
  decide

theorem square_of_infinite {x : Binary64} (infinite : x.isInfinite = true) : mul x x = infinity := by
  apply (isUnsigned_square (isNaN_of_isInfinite infinite)).eq_infinity
  unfold mul
  rw [isNaN_of_isInfinite infinite, infinite, isZero_of_isInfinite infinite]
  rfl

end Binary64

namespace Spread

variable {samples : List Binary64} {mean : Binary64}

theorem stdDev_of_ofSamples? {spread : Spread} (run : ofSamples? samples = some spread) :
    spread.stdDev = sqrt (varianceOf (sorted samples) spread.mean) := by
  simp only [ofSamples?, Option.bind_eq_bind, Option.bind_eq_some_iff, Option.pure_def,
    Option.some.injEq] at run
  obtain ⟨_, -, _, -, _, -, rfl⟩ := run
  rfl

section Finite

variable (finite : ∀ x ∈ samples, x.isFinite = true) (few : samples.length ≤ 2 ^ 53)

include finite few

theorem isUnsigned_varianceOf (number : mean.isNaN = false) :
    IsUnsigned (varianceOf samples mean) := by
  unfold varianceOf
  split
  · next several =>
    refine isUnsigned_div_count (isUnsigned_sum ?_ ?_) (Nat.sub_pos_of_lt several) (by omega)
    · rw [ne_eq, List.map_eq_nil_iff]
      exact List.ne_nil_of_length_pos (by omega)
    · exact List.forall_mem_map.2 fun x mem =>
        isUnsigned_square (isNaN_sub_of_finite (finite x mem) number)
  · exact isUnsigned_zero

theorem isUnsigned_stdDev (number : mean.isNaN = false) :
    IsUnsigned (sqrt (varianceOf samples mean)) :=
  (isUnsigned_varianceOf finite few number).sqrt

end Finite

/-- If all squares are the same number, and that is its own double, then it is their sum. -/
theorem varianceOf_eq {square : Binary64} (number : square.isNaN = false)
    (stable : add square square = square)
    (each : ∀ x ∈ samples, mul (sub x mean) (sub x mean) = square) (several : 2 ≤ samples.length) :
    varianceOf samples mean = div square (ofNat (samples.length - 1)) := by
  unfold varianceOf
  rw [if_pos (show 1 < samples.length from several)]
  dsimp only
  rw [sum_eq_of_stable number stable _ (List.forall_mem_map.2 each)]
  rw [ne_eq, List.map_eq_nil_iff]
  exact List.ne_nil_of_length_pos (by omega)

/-- Samples that are all equal to the mean do not deviate from it. -/
theorem stdDev_of_equal (finite : mean.isFinite = true) (few : samples.length ≤ 2 ^ 53)
    (each : ∀ x ∈ samples, x = mean) : sqrt (varianceOf samples mean) = zero := by
  suffices none : varianceOf samples mean = zero by
    rw [none]
    decide +kernel
  by_cases several : 2 ≤ samples.length
  · have squares : ∀ x ∈ samples, mul (sub x mean) (sub x mean) = zero := by
      intro x mem
      rw [each x mem, self_sub finite]
      decide +kernel
    have one_less : samples.length - 1 ≤ 2 ^ 53 := Nat.le_trans (Nat.sub_le _ _) few
    rw [varianceOf_eq (by decide) (by decide +kernel) squares several]
    exact zero_div_of_finite (isUnsigned_count one_less) (units_count one_less).1
      (isZero_count (by omega) one_less)
  · exact if_neg several

/-- From an infinite mean, samples deviate without bound. -/
theorem stdDev_of_infinite (finite : ∀ x ∈ samples, x.isFinite = true)
    (few : samples.length ≤ 2 ^ 53) (several : 2 ≤ samples.length) (infinite : mean.isInfinite = true) :
    sqrt (varianceOf samples mean) = infinity := by
  have squares : ∀ x ∈ samples, mul (sub x mean) (sub x mean) = infinity :=
    fun x mem => square_of_infinite (isInfinite_sub (finite x mem) infinite)
  have quotient : div infinity (ofNat (samples.length - 1)) = infinity :=
    (isUnsigned_div_count ⟨rfl, rfl⟩ (by omega) (by omega)).eq_infinity
      (isInfinite_div rfl (units_count (Nat.le_trans (Nat.sub_le _ _) few)).1)
  rw [varianceOf_eq rfl (by decide) squares several, quotient]
  decide

end Spread

end BenchLog
