import BenchLog.Proofs.Binary64.ExactSums
import BenchLog.Proofs.Decimal.RoundTrip

/-!
# Decimals with a set number of places

A finite double with a set number of decimal places, of one or more, is written as the multiple of the
last place that is nearest to its value (`spells_fixed`, `abs_fixedValue_sub_le`). A greater value is
rounded to no lesser multiple (`fixedValue_mono`), and a whole number is not moved, so no value is
rounded across one (`fixedValue_le_whole`, `whole_le_fixedValue`), whatever the number of places.
-/

namespace BenchLog

/-! ## Rounding a quotient -/

theorem roundDiv_mono {num num' den : Nat} (pos : 0 < den) (le : num ≤ num') :
    roundDiv num den ≤ roundDiv num' den := by
  by_contra beyond
  have above := (roundDiv_near num pos).1
  have below := (roundDiv_near num' pos).2
  have step := Nat.mul_le_mul_right den (show roundDiv num' den + 1 ≤ roundDiv num den by omega)
  rw [Nat.add_mul, Nat.one_mul] at step
  -- Both quotients would be the middle between two neighbours, and so the same.
  obtain rfl : num = num' := by omega
  exact beyond (Nat.le_refl _)

theorem abs_roundDiv_sub_le (num : Nat) {den : Nat} (pos : 0 < den) :
    |(roundDiv num den : ℚ) - num / den| ≤ 1 / 2 := by
  have pos' : (0 : ℚ) < den := Nat.cast_pos.2 pos
  obtain ⟨above, below⟩ := roundDiv_near num pos
  have above' : 2 * ((roundDiv num den : ℚ) * den) ≤ 2 * num + den := by exact_mod_cast above
  have below' : (2 * num : ℚ) ≤ 2 * (roundDiv num den * den) + den := by exact_mod_cast below
  have scaled : (roundDiv num den : ℚ) - num / den = (roundDiv num den * den - num) / den := by
    field_simp
  rw [scaled, abs_div, abs_of_pos pos', div_le_iff₀ pos', abs_le]
  constructor <;> linarith

/-! ## Texts -/

namespace Decimal

theorem expand_snd_ne_nil {d : Decimal} (neg : d.exponent < 0) : d.expand.2 ≠ [] := by
  obtain ⟨digits, exponent⟩ := d
  cases exponent with
  | ofNat n => exact absurd neg (not_lt.2 (Int.natCast_nonneg n))
  | negSucc n =>
    unfold expand
    dsimp only
    split
    · intro nothing
      have length := congrArg List.length nothing
      rw [List.length_drop, List.length_nil] at length
      omega
    · exact List.append_ne_nil_of_right_ne_nil _ Nat.toDigits_ne_nil

theorem pointed_expand {d : Decimal} (neg : d.exponent < 0) :
    pointed d.expand = d.pointParts.1 ++ '.' :: d.pointParts.2 := by
  have some_fraction := expand_snd_ne_nil neg
  rw [pointParts, if_neg (by simpa using some_fraction)]
  generalize d.expand = parts at some_fraction ⊢
  obtain ⟨whole, fraction⟩ := parts
  cases fraction with
  | nil => exact absurd rfl some_fraction
  | cons digit more => rfl

end Decimal

namespace Binary64

open Decimal (pointParts pointed_expand)

/-- The value of a double, rounded to so many decimal places. -/
def fixedValue (places : Nat) (x : Binary64) : ℚ :=
  signed x.negative (roundDiv (x.units * Nat.pow 10 places) unitsPerOne) / 10 ^ places

/-- A finite double with some decimal places is written as its rounded value. -/
theorem spells_fixed {x : Binary64} {places : Nat} (finite : x.isFinite = true) (pos : 0 < places) :
    SpellsDecimal x.negative (fixedValue places x) (x.fixed places) := by
  let d : Decimal := ⟨roundDiv (unitsOf x.magnitude * Nat.pow 10 places) unitsPerOne, -(places : Int)⟩
  have text : x.fixed places = signText x.negative ++ (d.pointParts.1 ++ '.' :: d.pointParts.2) := by
    rw [← pointed_expand (show -(places : Int) < 0 by omega)]
    unfold fixed written
    simp [isNaN_of_isFinite finite, isInfinite_of_finite (isFinite_iff.1 finite), signText, d]
  have parts := SpellsParts.parts d.pointParts_digits.1 (.point d.pointParts_digits.2)
    (List.append_ne_nil_of_left_ne_nil d.pointParts_ne_nil.1 _) .none
  have spelled := SpellsDecimal.parts (spellsSign_signText x.negative) parts
  rw [List.append_nil, ← Decimal.value_ofParts, Decimal.value_pointParts, ← text] at spelled
  have value : (if x.negative then -1 else 1) * d.value = fixedValue places x := by
    simp only [Decimal.value, d, fixedValue, zpow_neg, zpow_natCast, units]
    generalize roundDiv (unitsOf x.magnitude * Nat.pow 10 places) unitsPerOne = rounded
    cases x.negative <;> simp [div_eq_mul_inv]
  rwa [value] at spelled

theorem abs_signed_div_sub (negative : Bool) (m n : Nat) (a b : ℚ) :
    |(signed negative m : ℚ) / a - signed negative n / b| = |(m : ℚ) / a - n / b| := by
  cases negative with
  | false => simp
  | true =>
    rw [signed_true, signed_true, ← abs_neg]
    congr 1
    push_cast
    ring

/-- What is written is off by no more than half of the last place. -/
theorem abs_fixedValue_sub_le (places : Nat) (x : Binary64) :
    |fixedValue places x - x.value| ≤ 1 / 2 / 10 ^ places := by
  have tens_pos : (0 : ℚ) < 10 ^ places := by positivity
  have one_pos := cast_unitsPerOne_pos
  have off := abs_roundDiv_sub_le (x.units * Nat.pow 10 places) unitsPerOne_pos
  rw [Nat.pow_eq] at off
  rw [fixedValue, value, signedUnits_eq, abs_signed_div_sub, Nat.pow_eq]
  generalize roundDiv (x.units * 10 ^ places) unitsPerOne = rounded at off ⊢
  push_cast at off
  generalize (unitsPerOne : ℚ) = one at one_pos off ⊢
  generalize (10 : ℚ) ^ places = tens at tens_pos off ⊢
  have scaled : (rounded : ℚ) / tens - x.units / one = (rounded - x.units * tens / one) / tens := by
    field_simp
  rw [scaled, abs_div, abs_of_pos tens_pos]
  gcongr

section Order

variable {places : Nat} {x y : Binary64}

theorem fixedValue_mono (le : x.signedUnits ≤ y.signedUnits) :
    fixedValue places x ≤ fixedValue places y := by
  have mono : Monotone fun units => roundDiv (units * Nat.pow 10 places) unitsPerOne :=
    fun _ _ le => roundDiv_mono unitsPerOne_pos (Nat.mul_le_mul_right _ le)
  have rounded := signed_mono mono (by simp [roundDiv]) le
  unfold fixedValue
  gcongr

theorem fixedValue_of_whole {k : Int} (whole : x.signedUnits = k * unitsPerOne) :
    fixedValue places x = k := by
  have tens : (10 : ℚ) ^ places ≠ 0 := by positivity
  have units : x.units = k.natAbs * unitsPerOne := by
    rw [← natAbs_signedUnits, whole, Int.natAbs_mul, Int.natAbs_natCast]
  have sign : signed x.negative k.natAbs = k := by
    rw [signedUnits_eq, units, signed_mul] at whole
    exact Int.eq_of_mul_eq_mul_right (Int.natCast_pos.2 unitsPerOne_pos).ne' whole
  rw [fixedValue, units, Nat.mul_right_comm, roundDiv_mul_self _ unitsPerOne_pos, signed_mul, sign,
    Nat.pow_eq]
  push_cast
  exact mul_div_cancel_right₀ _ tens

/-- No value is rounded across a whole number. -/
theorem fixedValue_le_whole {k : Int} (small : k.natAbs ≤ 2 ^ 53) (le : x.value ≤ k) :
    fixedValue places x ≤ k := by
  obtain ⟨y, -, whole⟩ := exists_whole small
  rw [← fixedValue_of_whole whole]
  apply fixedValue_mono
  rw [whole]
  rw [value, div_le_iff₀ cast_unitsPerOne_pos] at le
  exact_mod_cast le

theorem whole_le_fixedValue {k : Int} (small : k.natAbs ≤ 2 ^ 53) (le : k ≤ x.value) :
    k ≤ fixedValue places x := by
  obtain ⟨y, -, whole⟩ := exists_whole small
  rw [← fixedValue_of_whole whole]
  apply fixedValue_mono
  rw [whole]
  rw [value, le_div_iff₀ cast_unitsPerOne_pos] at le
  exact_mod_cast le

end Order

end Binary64

end BenchLog
