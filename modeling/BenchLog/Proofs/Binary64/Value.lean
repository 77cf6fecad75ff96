import BenchLog.Proofs.Binary64.Ordering
import BenchLog.Proofs.Decimal.Value
import Mathlib.Tactic.LinearCombination
import Mathlib.Tactic.NormNum

/-!
# Doubles as rational numbers

A finite double stands for a rational number (`Binary64.value`). That a quotient is rounded to nearest
says so about these: no finite double is nearer, and of two that are as near it is the one with the even
pattern (`IsRounding`). A quotient becomes an infinity from halfway between the greatest finite double
and `2 ^ 1024` on, and a zero up to half of the least positive one (`rounds_ofRatio`,
`Decimal.rounds_toBinary64`). This determines the double (`Rounds.unique`).
-/

namespace BenchLog.Binary64

open Decimal (lowerEnd upperEnd)

theorem cast_two_pow (n : Nat) : ((Nat.pow 2 n : Nat) : ℚ) = 2 ^ n := by
  rw [Nat.pow_eq]
  push_cast
  rfl

theorem cast_unitsPerOne : (unitsPerOne : ℚ) = 2 ^ 1074 := by
  rw [unitsPerOne]
  apply cast_two_pow

/-- The rational number that a finite double stands for. -/
def value (x : Binary64) : ℚ := x.signedUnits / unitsPerOne

/-- No finite double is nearer to the number than this one, and if another is as near, then this one
has the even pattern. -/
structure IsRounding (q : ℚ) (x : Binary64) : Prop where
  finite : x.isFinite = true
  nearest : ∀ y : Binary64, y.isFinite = true → |x.value - q| ≤ |y.value - q|
  even : ∀ y : Binary64, y.isFinite = true → y.value ≠ x.value → |y.value - q| = |x.value - q| →
    x.magnitude % 2 = 0

/-- The double that a number with a sign is rounded to. A zero has a sign as well. -/
structure Rounds (negative : Bool) (q : ℚ) (x : Binary64) : Prop where
  sign : x.negative = negative
  number : x.isNaN = false
  infinite : x.isInfinite = true ↔ 2 ^ 1024 - 2 ^ 970 ≤ |q|
  zero : x.isZero = true ↔ |q| ≤ 1 / 2 ^ 1075
  nearest : |q| < 2 ^ 1024 - 2 ^ 970 → IsRounding q x

/-! ## One double only -/

/-- Which of two numbers is nearer is a matter of the middle between them. -/
theorem abs_sub_le_abs_sub_iff (a b c : ℚ) : |a - c| ≤ |b - c| ↔ (a - b) * (a + b - 2 * c) ≤ 0 := by
  rw [← sq_le_sq]
  constructor <;> intro h <;> linarith

theorem add_eq_two_mul_of_abs_sub_eq {a b c : ℚ} (differ : a ≠ b) (tie : |a - c| = |b - c|) :
    a + b = 2 * c := by
  have below := (abs_sub_le_abs_sub_iff _ _ _).1 tie.le
  have above := (abs_sub_le_abs_sub_iff _ _ _).1 tie.ge
  have product : (a - b) * (a + b - 2 * c) = 0 := by linarith
  have factor := (mul_eq_zero.1 product).resolve_left (sub_ne_zero.2 differ)
  linarith

theorem value_lt_iff (x y : Binary64) : x.value < y.value ↔ x.level < y.level := by
  rw [value, value, div_lt_div_iff_of_pos_right cast_unitsPerOne_pos, Int.cast_lt, ← not_le,
    ← level_le_iff, not_le]

theorem lt_iff_value {x y : Binary64} (x_number : x.isNaN = false) (y_number : y.isNaN = false) :
    lt x y = true ↔ x.value < y.value := by
  simp [lt, x_number, y_number, value_lt_iff]

theorem le_iff_value {x y : Binary64} (x_number : x.isNaN = false) (y_number : y.isNaN = false) :
    le x y = true ↔ x.value ≤ y.value := by
  rw [le_iff x_number y_number, value, value, div_le_div_iff_of_pos_right cast_unitsPerOne_pos,
    Int.cast_le]

theorem exists_level_eq {n : Int} (small : n.natAbs < infinityMagnitude) :
    ∃ z : Binary64, z.isFinite = true ∧ z.level = n :=
  ⟨⟨decide (n < 0), n.natAbs, small.trans (by decide)⟩, isFinite_iff.2 small, signed_decide n⟩

/-- Between two even patterns there is an odd one. -/
theorem exists_between {x y : Binary64} (x_finite : x.isFinite = true) (y_finite : y.isFinite = true)
    (x_even : x.magnitude % 2 = 0) (y_even : y.magnitude % 2 = 0) (lt : x.value < y.value) :
    ∃ z : Binary64, z.isFinite = true ∧ x.value < z.value ∧ z.value < y.value := by
  have level_cases (z : Binary64) : z.level = -(z.magnitude : Int) ∨ z.level = z.magnitude := by
    unfold level
    split <;> simp
  have x_cases := level_cases x
  have y_cases := level_cases y
  have x_below := isFinite_iff.1 x_finite
  have y_below := isFinite_iff.1 y_finite
  rw [value_lt_iff] at lt
  obtain ⟨z, z_finite, next⟩ :=
    exists_level_eq (show (x.level + 1).natAbs < infinityMagnitude by omega)
  refine ⟨z, z_finite, ?_, ?_⟩
  · rw [value_lt_iff]
    omega
  · rw [value_lt_iff]
    omega

/-- A number is rounded to one value only. -/
theorem IsRounding.not_lt {q : ℚ} {x y : Binary64} (rounding : IsRounding q x)
    (other : IsRounding q y) : ¬x.value < y.value := by
  intro lt
  have near := rounding.nearest y other.finite
  have far := other.nearest x rounding.finite
  obtain ⟨z, z_finite, above, below⟩ := exists_between rounding.finite other.finite
    (rounding.even y other.finite lt.ne' (le_antisymm far near))
    (other.even x rounding.finite lt.ne (le_antisymm near far)) lt
  -- the number is the middle of the two, and so nearer to what lies between them
  have middle := add_eq_two_mul_of_abs_sub_eq lt.ne (le_antisymm near far)
  have nearer := (abs_sub_le_abs_sub_iff _ _ _).1 (rounding.nearest z z_finite)
  have positive := mul_pos_of_neg_of_neg (sub_neg.2 above)
    (show x.value + z.value - 2 * q < 0 by linarith)
  exact absurd nearer (not_le.2 positive)

/-- A number with a sign is rounded to one double only. -/
theorem Rounds.unique {negative : Bool} {q : ℚ} {x y : Binary64} (rounds : Rounds negative q x)
    (other : Rounds negative q y) : x = y := by
  have sign := rounds.sign.trans other.sign.symm
  suffices same : x.magnitude = y.magnitude by
    obtain ⟨_, _, _⟩ := x
    obtain ⟨_, _, _⟩ := y
    cases sign
    cases same
    rfl
  rcases le_or_gt (2 ^ 1024 - 2 ^ 970) |q| with large | small
  · exact (of_decide_eq_true (rounds.infinite.2 large)).trans
      (of_decide_eq_true (other.infinite.2 large)).symm
  · have rounding := rounds.nearest small
    have rounding' := other.nearest small
    have level : x.level = y.level := le_antisymm
      (not_lt.1 (mt (value_lt_iff y x).2 (rounding'.not_lt rounding)))
      (not_lt.1 (mt (value_lt_iff x y).2 (rounding.not_lt rounding')))
    unfold Binary64.level at level
    rw [sign] at level
    split at level <;> omega

/-! ## Units -/

section Units

variable {units : ℚ} {magnitude : Nat} (rounds : RoundsTo units magnitude)

/-- Any value other than that of a magnitude is no nearer than the neighbour on its side: the middle is an
end of the magnitude or lies beyond it. -/
theorem middle_cases (negative : Bool) (magnitude other : Nat) :
    (signed negative (unitsOf other) : ℚ) ≤ unitsOf magnitude ∧
        (unitsOf magnitude + signed negative (unitsOf other) : ℚ) ≤ lowerEnd magnitude ∨
      (unitsOf magnitude : ℚ) ≤ signed negative (unitsOf other) ∧
        (upperEnd magnitude : ℚ) ≤ unitsOf magnitude + signed negative (unitsOf other) ∨
      (signed negative (unitsOf other) : ℚ) = unitsOf magnitude := by
  have mono := strictMono_unitsOf.monotone
  have below := mono (Nat.sub_le magnitude 1)
  have above := mono (Nat.le_succ magnitude)
  unfold lowerEnd upperEnd
  cases negative with
  | true =>
    left
    rw [signed_true]
    constructor <;> exact_mod_cast (by omega)
  | false =>
    rw [signed_false, Int.cast_natCast]
    rcases Nat.lt_trichotomy other magnitude with less | same | more
    · have le := mono (show other ≤ magnitude - 1 by omega)
      exact Or.inl ⟨by exact_mod_cast le.trans below, by exact_mod_cast (by omega)⟩
    · exact Or.inr (Or.inr (by rw [same]))
    · have le := mono (show magnitude + 1 ≤ other by omega)
      exact Or.inr (Or.inl ⟨by exact_mod_cast above.trans le, by exact_mod_cast (by omega)⟩)

include rounds

/-- The magnitude that a number of units rounds to is no farther off than any other. -/
theorem RoundsTo.abs_sub_le (negative : Bool) (other : Nat) :
    |(unitsOf magnitude : ℚ) - units| ≤ |(signed negative (unitsOf other) : ℚ) - units| := by
  have low := rounds.low
  have high := rounds.high
  rw [abs_sub_le_abs_sub_iff]
  rcases middle_cases negative magnitude other with ⟨less, middle⟩ | ⟨more, middle⟩ | same
  · exact mul_nonpos_of_nonneg_of_nonpos (by linarith) (by linarith)
  · exact mul_nonpos_of_nonpos_of_nonneg (by linarith) (by linarith)
  · rw [same, sub_self, zero_mul]

/-- Where another number of units is as near, the magnitude is even. -/
theorem RoundsTo.even_of_tie {negative : Bool} {other : Nat}
    (differ : (signed negative (unitsOf other) : ℚ) ≠ unitsOf magnitude)
    (tie : |(signed negative (unitsOf other) : ℚ) - units| = |(unitsOf magnitude : ℚ) - units|) :
    magnitude % 2 = 0 := by
  by_contra not_even
  obtain ⟨not_low, not_high⟩ := rounds.odd (by omega)
  -- the units are the middle between the two, and so an end of the magnitude
  have middle_eq := add_eq_two_mul_of_abs_sub_eq differ.symm tie.symm
  rcases middle_cases negative magnitude other with ⟨-, middle⟩ | ⟨-, middle⟩ | same
  · exact not_low (le_antisymm rounds.low (middle_eq ▸ middle))
  · exact not_high (le_antisymm rounds.high (middle_eq ▸ middle))
  · exact differ same

/-- An even magnitude is reached from its lower midpoint on. -/
theorem RoundsTo.le_iff_of_even {least : Nat} (even : least % 2 = 0) :
    least ≤ magnitude ↔ (lowerEnd least : ℚ) ≤ 2 * units := by
  constructor
  · intro le
    exact (Nat.cast_le.2 (lowerEnd_mono le)).trans rounds.low
  · contrapose!
    intro lt
    by_cases next : magnitude + 1 < least
    · exact rounds.high.trans_lt (Nat.cast_lt.2 (upperEnd_lt_lowerEnd next))
    · -- the midpoint that they share goes to the even one
      have shared : (upperEnd magnitude : ℚ) ≤ lowerEnd least :=
        Nat.cast_le.2 (upperEnd_le_lowerEnd lt)
      exact (lt_of_le_of_ne rounds.high (rounds.odd (by omega)).2).trans_le shared

/-- An even magnitude is not exceeded up to its upper midpoint. -/
theorem RoundsTo.ge_iff_of_even {most : Nat} (even : most % 2 = 0) :
    magnitude ≤ most ↔ 2 * units ≤ upperEnd most := by
  constructor
  · intro le
    rcases Nat.lt_or_eq_of_le le with lt | rfl
    · exact rounds.high.trans (Nat.cast_le.2
        ((upperEnd_le_lowerEnd lt).trans ((lowerEnd_le most).trans (lt_upperEnd most).le)))
    · exact rounds.high
  · contrapose!
    intro lt
    by_cases next : most + 1 < magnitude
    · exact (Nat.cast_lt.2 (upperEnd_lt_lowerEnd next)).trans_le rounds.low
    · have shared : (upperEnd most : ℚ) ≤ lowerEnd magnitude :=
        Nat.cast_le.2 (upperEnd_le_lowerEnd lt)
      exact shared.trans_lt (lt_of_le_of_ne rounds.low (rounds.odd (by omega)).1)

end Units

/-! ## Quotients -/

/-- Halfway between the greatest finite double and `2 ^ 1024`. -/
theorem lowerEnd_infinityMagnitude :
    (lowerEnd infinityMagnitude : ℚ) = 2 * ((2 ^ 1024 - 2 ^ 970) * unitsPerOne) := by
  have whole : lowerEnd infinityMagnitude + 2 * (Nat.pow 2 970 * unitsPerOne) =
      2 * (Nat.pow 2 1024 * unitsPerOne) := by decide +kernel
  have cast := congrArg (Nat.cast : Nat → ℚ) whole
  simp only [Nat.cast_add, Nat.cast_mul, Nat.cast_ofNat, cast_two_pow] at cast
  generalize (2 : ℚ) ^ 1024 = top at cast ⊢
  generalize (2 : ℚ) ^ 970 = half at cast ⊢
  linear_combination cast

theorem one_le_two_mul_iff (q : ℚ) : 2 * (q * unitsPerOne) ≤ upperEnd 0 ↔ q ≤ 1 / 2 ^ 1075 := by
  have shift : (2 : ℚ) ^ 1075 = 2 ^ 1074 * 2 := pow_succ 2 1074
  rw [show upperEnd 0 = 1 by decide, cast_unitsPerOne, Nat.cast_one, shift]
  generalize hp : (2 : ℚ) ^ 1074 = one
  have pos : 0 < one := by rw [← hp]; positivity
  rw [le_div_iff₀ (by positivity)]
  constructor <;> intro h <;> linarith

section Quotient

variable {num den : Nat} (negative : Bool) (pos : 0 < den)

include pos

/-- Where a double is from a quotient with a sign, seen from the side of that sign. -/
theorem value_sub_eq (y : Binary64) :
    y.value - (signed negative num : ℚ) / den = (if negative then -1 else 1) *
      (((signed (y.negative != negative) y.units : ℚ) - num * unitsPerOne / den) / unitsPerOne) := by
  have one_pos := cast_unitsPerOne_pos
  have pos' : (0 : ℚ) < den := Nat.cast_pos.2 pos
  rw [value, signedUnits_eq]
  generalize (unitsPerOne : ℚ) = one at one_pos ⊢
  cases negative <;> cases y.negative <;> simp <;> field_simp <;> ring

theorem abs_value_sub (y : Binary64) :
    |y.value - (signed negative num : ℚ) / den| =
      |(signed (y.negative != negative) y.units : ℚ) - num * unitsPerOne / den| / unitsPerOne := by
  have sign : |if negative then (-1 : ℚ) else 1| = 1 := by cases negative <;> simp
  rw [value_sub_eq negative pos, abs_mul, sign, one_mul, abs_div, Nat.abs_cast]

/-- A quotient that is rounded to a finite double is rounded to the nearest one. -/
theorem isRounding_ofRatio (finite : (ofRatio negative num den).isFinite = true) :
    IsRounding ((signed negative num : ℚ) / den) (ofRatio negative num den) := by
  have rounds := (isNearest_iff pos).1
    ((nearestMagnitude_eq_iff pos (isFinite_iff.1 finite)).1 rfl)
  rw [Nat.cast_mul] at rounds
  have one_pos := cast_unitsPerOne_pos
  have own_side : signed ((ofRatio negative num den).negative != negative)
      (ofRatio negative num den).units = unitsOf (ofRatio negative num den).magnitude := by
    simp [ofRatio, units]
  have own : |(ofRatio negative num den).value - (signed negative num : ℚ) / den| =
      |(unitsOf (ofRatio negative num den).magnitude : ℚ) - num * unitsPerOne / den| /
        unitsPerOne := by
    rw [abs_value_sub negative pos, own_side, Int.cast_natCast]
  refine ⟨finite, fun y _ => ?_, fun y _ differ tie => ?_⟩
  · rw [own, abs_value_sub negative pos y, div_le_div_iff_of_pos_right one_pos]
    exact rounds.abs_sub_le _ _
  · rw [own, abs_value_sub negative pos y, div_left_inj' one_pos.ne'] at tie
    refine rounds.even_of_tie (fun same => differ ?_) tie
    rw [← sub_left_inj (a := (signed negative num : ℚ) / den), value_sub_eq negative pos y, units,
      same, value_sub_eq negative pos, own_side, Int.cast_natCast]

/-- A quotient is rounded to the nearest double of its sign. -/
theorem rounds_ofRatio :
    Rounds negative ((signed negative num : ℚ) / den) (ofRatio negative num den) := by
  obtain ⟨magnitude, spec, rounded⟩ := exists_isNearest (num * unitsPerOne) pos
  have rounds := (isNearest_iff pos).1 spec
  rw [Nat.cast_mul] at rounds
  have one_pos := cast_unitsPerOne_pos
  have size : |(signed negative num : ℚ) / den| = num / den := by
    rw [abs_div, Nat.abs_cast]
    cases negative <;> simp
  have scaled : (num : ℚ) * unitsPerOne / den = num / den * unitsPerOne := by ring
  rw [scaled] at rounds
  have infinite : infinityMagnitude ≤ magnitude ↔ 2 ^ 1024 - 2 ^ 970 ≤ (num : ℚ) / den := by
    rw [rounds.le_iff_of_even (by decide), lowerEnd_infinityMagnitude,
      mul_le_mul_iff_right₀ (by norm_num), mul_le_mul_iff_left₀ one_pos]
  have pattern : (ofRatio negative num den).magnitude = min magnitude infinityMagnitude := rounded
  rw [← size] at infinite rounds
  refine ⟨rfl, ?_, ?_, ?_, fun small => isRounding_ofRatio negative pos ?_⟩
  · rw [isNaN_eq_false_iff, pattern]
    exact Nat.min_le_right _ _
  · rw [← infinite, isInfinite, decide_eq_true_iff, pattern]
    omega
  · rw [← one_le_two_mul_iff, ← rounds.ge_iff_of_even rfl, isZero, decide_eq_true_iff, pattern]
    have := show 0 < infinityMagnitude by decide
    omega
  · rw [← not_le, ← infinite] at small
    rw [isFinite_iff, pattern]
    omega

end Quotient

end BenchLog.Binary64

namespace BenchLog.Decimal

/-- A decimal with a sign is rounded to the nearest double. -/
theorem rounds_toBinary64 (negative : Bool) (d : Decimal) :
    Binary64.Rounds negative ((if negative then -1 else 1) * d.value) (d.toBinary64 negative) := by
  have quotient : (Binary64.signed negative d.numerator : ℚ) / d.denominator =
      (if negative then -1 else 1) * d.value := by
    rw [value_eq]
    cases negative <;> simp [neg_div]
  rw [← quotient, toBinary64_eq_ofRatio]
  exact Binary64.rounds_ofRatio negative d.denominator_pos

end BenchLog.Decimal
