import BenchLog.Proofs.Binary64.Whole
import BenchLog.Stats.Spread

/-!
# The median is there

The rank of the median is half of the greatest index, rounded, and does not lie beyond that index
(`Binary64.units_half_mul_ofNat_le`); so both samples that the rank asks for are there
(`exists_atRank?`), and all samples but none have a spread (`Spread.exists_ofSamples?`).
-/

namespace BenchLog

namespace Binary64

/-- A whole number is not rounded beyond a power of two. -/
theorem magnitude_ofNat_le {n exponent : Nat} (le : n ≤ Nat.pow 2 exponent) :
    (ofNat n).magnitude ≤ (exponent + 1023) * binade := by
  apply nearestMagnitude_le Nat.one_pos
  rw [Nat.mul_one, unitsOf_two_pow]
  exact Nat.mul_le_mul_right unitsPerOne le

/-- A number that is not above a whole number has no greater whole part, rounded down or up. -/
theorem floor_le_of_units_le {x : Binary64} {n : Nat} (le : x.units ≤ n * unitsPerOne) :
    x.floor ≤ n :=
  Nat.div_le_of_le_mul (by rwa [Nat.mul_comm])

theorem ceil_le_of_units_le {x : Binary64} {n : Nat} (le : x.units ≤ n * unitsPerOne) :
    x.ceil ≤ n := by
  have pos := unitsPerOne_pos
  unfold ceil
  apply Nat.lt_succ_iff.1
  rw [Nat.div_lt_iff_lt_mul pos, Nat.succ_mul]
  omega

def half : Binary64 := ⟨false, 1022 * binade, by decide⟩

theorem two_mul_units_half : 2 * half.units = unitsPerOne := by decide +kernel

/-- Half of a whole number below `2 ^ 64` is not rounded beyond the number. -/
theorem units_half_mul_ofNat_le {n : Nat} (pos : 0 < n) (fits : n < UInt64.size) :
    (mul half (ofNat n)).units ≤ n * unitsPerOne := by
  -- The number lies between two powers of two, so its half is rounded to no more than the lower one.
  have exponent_lt : n.log2 < 64 := (Nat.log2_lt (by omega)).2 fits
  have above : n ≤ Nat.pow 2 (n.log2 + 1) := Nat.le_of_lt Nat.lt_log2_self
  have rounded := magnitude_ofNat_le above
  have finite : (ofNat n).magnitude < infinityMagnitude := by
    calc (ofNat n).magnitude ≤ (n.log2 + 1 + 1023) * binade := rounded
      _ < infinityMagnitude := Nat.mul_lt_mul_of_pos_right (by omega) binade_pos
  have units_le : (ofNat n).units ≤ Nat.pow 2 (n.log2 + 1) * unitsPerOne := by
    rw [← unitsOf_two_pow]
    exact strictMono_unitsOf.monotone rounded
  have product : half.units * (ofNat n).units ≤ unitsOf ((n.log2 + 1023) * binade) * unitsPerOne :=
    calc half.units * (ofNat n).units
        ≤ half.units * (Nat.pow 2 (n.log2 + 1) * unitsPerOne) := Nat.mul_le_mul_left _ units_le
      _ = Nat.pow 2 n.log2 * (2 * half.units) * unitsPerOne := by
        rw [two_pow_succ]
        ring
      _ = unitsOf ((n.log2 + 1023) * binade) * unitsPerOne := by
        rw [two_mul_units_half, unitsOf_two_pow]
  rw [mul_of_finite (by decide) finite]
  calc unitsOf (nearestMagnitude (half.units * (ofNat n).units) unitsPerOne)
      ≤ unitsOf ((n.log2 + 1023) * binade) :=
        strictMono_unitsOf.monotone (nearestMagnitude_le unitsPerOne_pos product)
    _ = Nat.pow 2 n.log2 * unitsPerOne := unitsOf_two_pow n.log2
    _ ≤ n * unitsPerOne := Nat.mul_le_mul_right _ (Nat.log2_self_le (by omega))

end Binary64

open Binary64

/-! ## Ranks -/

/-- Both samples are there for a rank that does not lie beyond the greatest index. -/
theorem exists_atRank? {ascending : List Binary64} {rank : Binary64} (nonempty : ascending ≠ [])
    (le : rank.units ≤ (ascending.length - 1) * unitsPerOne) :
    ∃ value, atRank? ascending rank = some value := by
  have size := List.length_pos_iff.2 nonempty
  have floor_le := floor_le_of_units_le le
  have ceil_le := ceil_le_of_units_le le
  have floor_lt : rank.floor < ascending.length := by omega
  have ceil_lt : rank.ceil < ascending.length := by omega
  unfold atRank?
  rw [List.getElem?_eq_getElem floor_lt, List.getElem?_eq_getElem ceil_lt]
  split
  · exact ⟨_, rfl⟩
  · exact ⟨_, rfl⟩

theorem percentileRank_fifty (count : Nat) :
    percentileRank count (ofNat 50) = mul half (ofNat (count - 1)) := by
  have middle : div (ofNat 50) hundred = half := by decide +kernel
  rw [percentileRank, middle]

theorem exists_median {samples : List Binary64} (nonempty : samples ≠ [])
    (fits : samples.length < UInt64.size) : ∃ value, percentile? samples (ofNat 50) = some value := by
  have inside : (le zero (ofNat 50) && le (ofNat 50) hundred) = true := by decide +kernel
  have size := List.length_pos_iff.2 nonempty
  unfold percentile?
  rw [inside, if_neg (by simpa using nonempty)]
  dsimp only
  split
  · next one => exact ⟨_, List.getElem?_eq_getElem (by omega)⟩
  · next several =>
    rw [length_sorted] at several
    apply exists_atRank? (by simpa [← List.length_eq_zero_iff] using nonempty)
    rw [percentileRank_fifty, length_sorted]
    exact units_half_mul_ofNat_le (by omega) (by omega)

namespace Spread

/-- All samples but none have a spread. -/
theorem exists_ofSamples? {samples : List Binary64} (nonempty : samples ≠ [])
    (fits : samples.length < UInt64.size) : ∃ spread, Spread.ofSamples? samples = some spread := by
  have ascending : sorted samples ≠ [] := by simpa [← List.length_eq_zero_iff] using nonempty
  obtain ⟨median, found⟩ := exists_median ascending (by rwa [length_sorted])
  unfold ofSamples?
  dsimp only
  rw [List.head?_eq_some_head ascending, List.getLast?_eq_some_getLast ascending, found]
  exact ⟨_, rfl⟩

/-- The parts of a spread. -/
theorem of_ofSamples? {samples : List Binary64} {spread : Spread}
    (run : ofSamples? samples = some spread) :
    (sorted samples).head? = some spread.min ∧ (sorted samples).getLast? = some spread.max ∧
      percentile? (sorted samples) (ofNat 50) = some spread.p50 ∧
      spread.mean = meanOf (sorted samples) ∧ spread.count = samples.length := by
  simp only [ofSamples?, Option.bind_eq_bind, Option.bind_eq_some_iff, Option.pure_def,
    Option.some.injEq] at run
  obtain ⟨min, first, max, last, p50, median, rfl⟩ := run
  exact ⟨first, last, median, rfl, length_sorted samples⟩

theorem count_of_ofSamples? {samples : List Binary64} {spread : Spread}
    (run : ofSamples? samples = some spread) : spread.count = samples.length :=
  (of_ofSamples? run).2.2.2.2

end Spread

end BenchLog
