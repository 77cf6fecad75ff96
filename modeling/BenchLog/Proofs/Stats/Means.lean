import BenchLog.Proofs.Binary64.Sums
import BenchLog.Proofs.Stats.Trimming
import BenchLog.Stats.Spread

/-!
# Rounded means

Dividing by a count divides the units and rounds once (`Binary64.div_ofNat`). So the mean as a sum over
a count is off by no more than a step of the last bit for each sample (`meanOf_error`, `meanSlack`),
and the sum of the shares, which is taken where the sum overflows, is not worse
(`sum_shares_error`): it is finite unless the samples reach the end of the range up to that slack
(`isFinite_sum_shares`). After a sum that comes out exactly, the mean lies between any bounds of the
samples that are numbers themselves (`le_meanOf`, `meanOf_le`).
-/

namespace BenchLog

open Binary64

namespace Binary64

/-! ## Division by a count -/

section Count

variable {x : Binary64} {n : Nat} (finite : x.isFinite = true) (pos : 0 < n) (few : n ≤ 2 ^ 53)

include finite pos few

/-- Dividing by a count divides the units. -/
theorem div_ofNat : div x (ofNat n) = ofUnitRatio x.negative x.units n := by
  obtain ⟨count_finite, count_units⟩ := units_count (show n ≤ 2 * binade from few)
  rw [div_of_finite (isFinite_iff.1 finite) (isFinite_iff.1 count_finite) (isZero_count pos few),
    count_units, negative_ofNat, Bool.bne_false, ofRatio]
  simp only [ofUnitRatio, nearestMagnitude_mul pos unitsPerOne_pos]

theorem isFinite_div_ofNat : (div x (ofNat n)).isFinite = true := by
  rw [div_ofNat finite pos few]
  have own : x.units ≤ unitsOf x.magnitude * n := Nat.le_mul_of_pos_right _ pos
  apply isFinite_iff.2
  exact Nat.lt_of_le_of_lt (nearestMagnitude_le pos own) (isFinite_iff.1 finite)

theorem div_ofNat_error :
    |((div x (ofNat n)).signedUnits : ℚ) - x.signedUnits / n| ≤
      1 / 2 + |(x.signedUnits : ℚ)| / n / 2 ^ 53 := by
  have size : (x.units : ℚ) = |(x.signedUnits : ℚ)| := by
    rw [← natAbs_signedUnits, Nat.cast_natAbs]
    push_cast
    rfl
  have bounded := isFinite_div_ofNat finite pos few
  rw [div_ofNat finite pos few] at bounded ⊢
  rw [← size, signedUnits_eq x]
  exact (ofUnitRatio_error pos bounded).trans (max_le_add_of_nonneg (by norm_num) (by positivity))

end Count

/-- Samples that are divided one by one lose as much as there are of them. -/
theorem abs_exactSum_map_sub_le {f : Binary64 → Binary64} {count loss : ℚ} {xs : List Binary64}
    (each : ∀ x ∈ xs, |((f x).signedUnits : ℚ) - x.signedUnits / count| ≤ loss) :
    |(exactSum (xs.map f) : ℚ) - exactSum xs / count| ≤ xs.length * loss := by
  induction xs with
  | nil => simp
  | cons x xs ih =>
    have head := each x (by simp)
    have tail := ih fun y mem => each y (by simp [mem])
    have parts := abs_add_le (((f x).signedUnits : ℚ) - x.signedUnits / count)
      (exactSum (xs.map f) - exactSum xs / count)
    rw [List.map_cons, exactSum_cons, exactSum_cons]
    push_cast [List.length_cons]
    calc _ = _ := by ring_nf
      _ ≤ _ := parts
      _ ≤ (xs.length + 1) * loss := by linarith

end Binary64

/-! ## Rounded means -/

/-- How far the mean of so many samples within a bound may be off, in units. -/
def meanSlack (count : Nat) (bound : ℚ) : ℚ := count * bound / 2 ^ 52 + 1

/-- The samples, each divided by their count. -/
def shares (kept : List Binary64) : List Binary64 := kept.map fun x => div x (ofNat kept.length)

@[simp] theorem length_shares (kept : List Binary64) : (shares kept).length = kept.length :=
  List.length_map _

/-- The bound of the shares of samples within a bound. -/
def shareBound (count : Nat) (bound : ℚ) : ℚ := bound / count + (1 / 2 + bound / count / 2 ^ 53)

/-- What adding up the shares loses, and what dividing them has lost: if the bound is large, then the
second, and all halves of a unit, are small beside the first. -/
theorem shares_loss_le {n : Nat} {bound : ℚ} (several : 2 ≤ n) (few : n ≤ 2 ^ 53)
    (large : 2 ^ 105 ≤ bound) :
    n ^ 2 * shareBound n bound / 2 ^ 53 + n * (1 / 2 + bound / n / 2 ^ 53) ≤ meanSlack n bound := by
  have several' : (2 : ℚ) ≤ n := by exact_mod_cast several
  have few' : (n : ℚ) ≤ 2 ^ 53 := by exact_mod_cast few
  unfold shareBound meanSlack
  generalize (n : ℚ) = count at *
  have pos : 0 < count := by linarith
  have squares : count ^ 2 ≤ 2 ^ 53 * count := by nlinarith
  have growth : 0 ≤ (bound - 2 ^ 54) * (3 * count / 4 - 1) :=
    mul_nonneg (by linarith) (by linarith)
  have halves : count * bound / 2 ^ 106 ≤ count * bound / 4 / 2 ^ 53 := by
    have : 0 ≤ count * bound := mul_nonneg pos.le (by linarith)
    linarith
  have expand : count ^ 2 * (bound / count + (1 / 2 + bound / count / 2 ^ 53)) / 2 ^ 53 +
      count * (1 / 2 + bound / count / 2 ^ 53) =
      count * bound / 2 ^ 53 + count ^ 2 / 2 ^ 54 + count * bound / 2 ^ 106 +
        (count / 2 + bound / 2 ^ 53) := by
    field_simp
    ring
  rw [expand]
  linarith

section Means

variable {kept : List Binary64} {bound : ℚ}
  (each : ∀ x ∈ kept, |(x.signedUnits : ℚ)| ≤ bound)
  (several : 2 ≤ kept.length) (few : kept.length ≤ 2 ^ 53)

include each several in
theorem bound_nonneg : 0 ≤ bound := by
  obtain ⟨x, mem⟩ := List.exists_mem_of_length_pos (show 0 < kept.length by omega)
  exact (abs_nonneg _).trans (each x mem)

include each several few

/-- A mean that is the sum over the count: the losses of the sum are divided by the count as well. -/
theorem meanOf_error (total : (sum kept).isFinite = true) :
    |((Spread.meanOf kept).signedUnits : ℚ) - exactSum kept / kept.length| ≤
      meanSlack kept.length bound := by
  have nonneg := bound_nonneg each several
  have several' : (2 : ℚ) ≤ kept.length := by exact_mod_cast several
  have pos : (0 : ℚ) < kept.length := by linarith
  have loss := sum_error each few total
  have off : |((sum kept).signedUnits : ℚ) / kept.length - exactSum kept / kept.length| ≤
      kept.length * bound / 2 ^ 53 := by
    rw [← sub_div, abs_div, abs_of_pos pos, div_le_iff₀ pos]
    exact loss.trans (le_of_eq (by ring))
  have whole : |((sum kept).signedUnits : ℚ)| / kept.length ≤ 2 * bound := by
    rw [div_le_iff₀ pos]
    have size := abs_exactSum_le each
    have square := square_le few nonneg
    have parts := abs_sub_abs_le_abs_sub ((sum kept).signedUnits : ℚ) (exactSum kept)
    linarith
  have quotient := div_ofNat_error total (show 0 < kept.length by omega) few
  calc |((Spread.meanOf kept).signedUnits : ℚ) - exactSum kept / kept.length|
      ≤ |((Spread.meanOf kept).signedUnits : ℚ) - (sum kept).signedUnits / kept.length| +
          |((sum kept).signedUnits : ℚ) / kept.length - exactSum kept / kept.length| :=
        abs_sub_le _ _ _
    _ ≤ (1 / 2 + 2 * bound / 2 ^ 53) + kept.length * bound / 2 ^ 53 := by
        apply add_le_add (quotient.trans _) off
        gcongr
    _ ≤ meanSlack kept.length bound := by
        have share : 2 * bound ≤ kept.length * bound := by gcongr
        unfold meanSlack
        linarith

/-! ## Sums of shares -/

section Shares

variable (finite : ∀ x ∈ kept, x.isFinite = true)

omit several
include finite

theorem share_error {x : Binary64} (mem : x ∈ kept) :
    |((div x (ofNat kept.length)).signedUnits : ℚ) - x.signedUnits / kept.length| ≤
      1 / 2 + bound / kept.length / 2 ^ 53 := by
  apply (div_ofNat_error (finite x mem) (List.length_pos_of_mem mem) few).trans
  gcongr
  exact each x mem

theorem abs_share_le : ∀ y ∈ shares kept, |(y.signedUnits : ℚ)| ≤ shareBound kept.length bound := by
  refine List.forall_mem_map.2 fun x mem => ?_
  have off := share_error each few finite mem
  have whole : |(x.signedUnits : ℚ) / kept.length| ≤ bound / kept.length := by
    rw [abs_div, Nat.abs_cast]
    gcongr
    exact each x mem
  have parts := abs_sub_abs_le_abs_sub ((div x (ofNat kept.length)).signedUnits : ℚ)
    (x.signedUnits / kept.length)
  unfold shareBound
  linarith

omit each in
theorem isFinite_share : ∀ y ∈ shares kept, y.isFinite = true :=
  List.forall_mem_map.2 fun x mem =>
    isFinite_div_ofNat (finite x mem) (List.length_pos_of_mem mem) few

include several

/-- A mean that is the sum of the shares. -/
theorem sum_shares_error (large : 2 ^ 105 ≤ bound) (total : (sum (shares kept)).isFinite = true) :
    |((sum (shares kept)).signedUnits : ℚ) - exactSum kept / kept.length| ≤
      meanSlack kept.length bound := by
  have divided : |(exactSum (shares kept) : ℚ) - exactSum kept / kept.length| ≤
      kept.length * (1 / 2 + bound / kept.length / 2 ^ 53) :=
    abs_exactSum_map_sub_le fun x mem => share_error each few finite mem
  have added := sum_error (abs_share_le each few finite) (by rwa [length_shares]) total
  rw [length_shares] at added
  calc |((sum (shares kept)).signedUnits : ℚ) - exactSum kept / kept.length|
      ≤ |((sum (shares kept)).signedUnits : ℚ) - exactSum (shares kept)| +
          |(exactSum (shares kept) : ℚ) - exactSum kept / kept.length| := abs_sub_le _ _ _
    _ ≤ _ := add_le_add added divided
    _ ≤ meanSlack kept.length bound := shares_loss_le several few large

/-- The sum of the shares stays in range if the bound, with what may be lost, does. -/
theorem isFinite_sum_shares (large : 2 ^ 105 ≤ bound)
    (fits : bound + meanSlack kept.length bound ≤ greatest.units) :
    (sum (shares kept)).isFinite = true := by
  have loss := shares_loss_le several few large
  have pos : (0 : ℚ) < kept.length := Nat.cast_pos.2 (by omega)
  have whole : kept.length * shareBound kept.length bound =
      bound + kept.length * (1 / 2 + bound / kept.length / 2 ^ 53) := by
    unfold shareBound
    rw [mul_add, mul_div_cancel₀ _ pos.ne']
  apply isFinite_sum (isFinite_share few finite) (abs_share_le each few finite)
  · rwa [length_shares]
  · rw [length_shares, whole]
    refine le_trans ?_ fits
    linarith only [loss]

end Shares

section Overflow

variable (finite : ∀ x ∈ kept, x.isFinite = true) (overflow : (sum kept).isFinite = false)

include finite overflow

theorem greatest_lt_of_overflow : greatest.units < 2 * (kept.length * bound) := by
  by_contra fits
  have square := square_le few (bound_nonneg each several)
  rw [isFinite_sum finite each few (by linarith only [fits, square])] at overflow
  cases overflow

/-- Only large samples add up to more than the greatest number. -/
theorem large_of_overflow : 2 ^ 105 ≤ bound := by
  have far : ((2 ^ 160 : Nat) : ℚ) ≤ greatest.units :=
    Nat.cast_le.2 (show 2 ^ 160 ≤ greatest.units by decide +kernel)
  have few' : (kept.length : ℚ) ≤ 2 ^ 53 := by exact_mod_cast few
  have beyond := greatest_lt_of_overflow each several few finite overflow
  have total := mul_le_mul_of_nonneg_right few' (bound_nonneg each several)
  push_cast at far
  linarith only [far, beyond, total]

end Overflow

end Means

/-! ## Exact sums -/

section Exact

variable {kept : List Binary64} {x : Binary64} (number : x.isNaN = false) (pos : 0 < kept.length)
  (few : kept.length ≤ 2 ^ 53) (total : (sum kept).isFinite = true)
  (exact : (sum kept).signedUnits = exactSum kept)

include number pos few total exact

/-- After a sum that comes out exactly, only the quotient is rounded: not beyond a bound of all
samples that is itself a number. -/
theorem meanOf_le (each : ∀ y ∈ kept, y.signedUnits ≤ x.signedUnits) :
    (Spread.meanOf kept).signedUnits ≤ x.signedUnits := by
  rw [Spread.meanOf, div_ofNat total pos few]
  apply ofUnitRatio_le pos number
  have sums := List.sum_le_card_nsmul (kept.map signedUnits) x.signedUnits
    (List.forall_mem_map.2 each)
  rw [List.length_map, nsmul_eq_mul, mul_comm] at sums
  rw [← signedUnits_eq, exact]
  exact sums

theorem le_meanOf (each : ∀ y ∈ kept, x.signedUnits ≤ y.signedUnits) :
    x.signedUnits ≤ (Spread.meanOf kept).signedUnits := by
  rw [Spread.meanOf, div_ofNat total pos few]
  apply le_ofUnitRatio pos number
  have sums := List.card_nsmul_le_sum (kept.map signedUnits) x.signedUnits
    (List.forall_mem_map.2 each)
  rw [List.length_map, nsmul_eq_mul, mul_comm] at sums
  rw [← signedUnits_eq, exact]
  exact sums

end Exact

end BenchLog
