import BenchLog.Decimal.Shortest
import Mathlib.Order.Monotone.Basic
import Mathlib.Tactic.Linarith
import Mathlib.Tactic.Ring

/-!
# The nearest double

Magnitudes share an exponent in runs of `binade`, and inside a run neighbours are the same power of
two apart (`unitsOf_grid`); so values grow with magnitudes (`strictMono_unitsOf`).

A quotient is *nearest* to a magnitude (`IsNearest`) if it lies between the midpoints with the two
neighbours, ends included exactly if the magnitude is even. Every quotient is nearest to one
magnitude only (`IsNearest.unique`), and `nearestMagnitude` finds it
(`nearestMagnitude_eq_iff`).
-/

namespace BenchLog.Binary64

open Decimal (lowerEnd upperEnd)

/-! ## The grid of magnitudes -/

theorem two_pow_succ (n : Nat) : Nat.pow 2 (n + 1) = 2 * Nat.pow 2 n := Nat.pow_succ'

theorem two_pow_add (m n : Nat) : Nat.pow 2 (m + n) = Nat.pow 2 m * Nat.pow 2 n := Nat.pow_add 2 m n

theorem two_pow_pos (n : Nat) : 0 < Nat.pow 2 n := Nat.two_pow_pos n

theorem binade_pos : 0 < binade := Nat.two_pow_pos 52

theorem binade_even : binade % 2 = 0 := by decide

/-- With a significand of 53 bits, or a smaller one at the least exponent, the value is the
significand times a power of two. A significand of `2 ^ 53` is the carry into the next exponent. -/
theorem unitsOf_grid {shift significand : Nat} (small : significand ≤ 2 * binade)
    (normal : shift = 0 ∨ binade ≤ significand) :
    unitsOf (shift * binade + significand) = significand * Nat.pow 2 shift := by
  have pos := binade_pos
  unfold unitsOf
  by_cases low : significand < binade
  · obtain rfl : shift = 0 := by omega
    rw [if_pos (by omega)]
    simp
  by_cases carry : significand = 2 * binade
  · have quotient : shift * binade + significand = binade * (shift + 2) := by rw [carry]; ring
    rw [if_neg (by rw [quotient]; nlinarith), quotient, Nat.mul_mod_right,
      Nat.mul_div_cancel_left _ pos, Nat.add_zero, carry,
      show shift + 2 - 1 = shift + 1 by omega, two_pow_succ]
    ring
  · have quotient : shift * binade + significand =
        (significand - binade) + binade * (shift + 1) := by
      have : binade * (shift + 1) = shift * binade + binade := by ring
      omega
    rw [if_neg (by nlinarith), quotient, Nat.add_mul_mod_self_left,
      Nat.mod_eq_of_lt (by omega), Nat.add_mul_div_left _ _ pos, Nat.div_eq_of_lt (by omega),
      show binade + (significand - binade) = significand by omega,
      show 0 + (shift + 1) - 1 = shift by omega]

/-- Every magnitude is a power of two and a significand below the carry. -/
theorem exists_grid (magnitude : Nat) : ∃ shift significand,
    magnitude = shift * binade + significand ∧ significand < 2 * binade ∧
      (shift = 0 ∨ binade ≤ significand) := by
  have pos := binade_pos
  by_cases low : magnitude < binade
  · exact ⟨0, magnitude, by omega, by omega, Or.inl rfl⟩
  · have split := Nat.div_add_mod magnitude binade
    have small := Nat.mod_lt magnitude pos
    have some_run : 1 ≤ magnitude / binade := (Nat.one_le_div_iff pos).2 (by omega)
    refine ⟨magnitude / binade - 1, binade + magnitude % binade, ?_, by omega, Or.inr (by omega)⟩
    obtain ⟨run, run_eq⟩ : ∃ run, magnitude / binade = run + 1 := ⟨magnitude / binade - 1, by omega⟩
    rw [run_eq] at split ⊢
    rw [Nat.add_sub_cancel]
    linarith [show binade * (run + 1) = run * binade + binade by ring]

theorem unitsOf_lt_succ (magnitude : Nat) : unitsOf magnitude < unitsOf (magnitude + 1) := by
  obtain ⟨shift, significand, rfl, small, normal⟩ := exists_grid magnitude
  rw [Nat.add_assoc, unitsOf_grid (by omega) normal, unitsOf_grid (by omega) (by omega),
    Nat.add_mul, Nat.one_mul]
  exact Nat.lt_add_of_pos_right (two_pow_pos shift)

/-- A greater magnitude has a greater value. -/
theorem strictMono_unitsOf : StrictMono unitsOf := strictMono_nat_of_lt_succ unitsOf_lt_succ

@[simp] theorem unitsOf_zero : unitsOf 0 = 0 := by decide

/-- A whole number of at most 53 bits is the value of a magnitude, at every power of two. -/
theorem exists_unitsOf_eq {significand : Nat} (small : significand ≤ 2 * binade) (shift : Nat) :
    ∃ magnitude, unitsOf magnitude = significand * Nat.pow 2 shift := by
  induction shift generalizing significand with
  | zero => exact ⟨0 * binade + significand, unitsOf_grid small (Or.inl rfl)⟩
  | succ shift ih =>
    by_cases normal : binade ≤ significand
    · exact ⟨(shift + 1) * binade + significand, unitsOf_grid small (Or.inr normal)⟩
    · obtain ⟨magnitude, value⟩ := ih (show 2 * significand ≤ 2 * binade by omega)
      refine ⟨magnitude, ?_⟩
      rw [value, two_pow_succ]
      ring

/-- What a number has beyond its whole part is a number itself. -/
theorem exists_unitsOf_mod (magnitude : Nat) {exponent one : Nat} (power : one = Nat.pow 2 exponent) :
    ∃ rest, unitsOf rest = unitsOf magnitude % one := by
  rw [power]
  obtain ⟨shift, significand, rfl, small, normal⟩ := exists_grid magnitude
  rw [unitsOf_grid (Nat.le_of_lt small) normal]
  by_cases whole : exponent ≤ shift
  · refine ⟨0, ?_⟩
    rw [unitsOf_zero, ← Nat.sub_add_cancel whole, two_pow_add, ← Nat.mul_assoc, Nat.mul_mod_left]
  · obtain ⟨bits, rfl⟩ := Nat.exists_eq_add_of_le (Nat.le_of_not_le whole)
    rw [Nat.add_comm, two_pow_add, Nat.mul_mod_mul_right]
    have rest_le := Nat.mod_le significand (Nat.pow 2 bits)
    exact exists_unitsOf_eq (by omega) shift

/-! ## Midpoints -/

theorem lowerEnd_le (magnitude : Nat) : lowerEnd magnitude ≤ 2 * unitsOf magnitude := by
  have := strictMono_unitsOf.monotone (Nat.sub_le magnitude 1)
  unfold lowerEnd
  omega

theorem lowerEnd_lt {magnitude : Nat} (pos : 0 < magnitude) :
    lowerEnd magnitude < 2 * unitsOf magnitude := by
  have := strictMono_unitsOf (show magnitude - 1 < magnitude by omega)
  unfold lowerEnd
  omega

theorem lt_upperEnd (magnitude : Nat) : 2 * unitsOf magnitude < upperEnd magnitude := by
  have := unitsOf_lt_succ magnitude
  unfold upperEnd
  omega

theorem lowerEnd_mono {m n : Nat} (le : m ≤ n) : lowerEnd m ≤ lowerEnd n := by
  have low := strictMono_unitsOf.monotone (Nat.sub_le_sub_right le 1)
  have high := strictMono_unitsOf.monotone le
  unfold lowerEnd
  omega

/-- The midpoints lie in the order of the magnitudes. -/
theorem upperEnd_le_lowerEnd {m n : Nat} (lt : m < n) : upperEnd m ≤ lowerEnd n := by
  have below := strictMono_unitsOf.monotone (show m ≤ n - 1 by omega)
  have above := strictMono_unitsOf.monotone (show m + 1 ≤ n by omega)
  unfold upperEnd lowerEnd
  omega

theorem upperEnd_lt_lowerEnd {m n : Nat} (lt : m + 1 < n) : upperEnd m < lowerEnd n := by
  have below := strictMono_unitsOf (show m < n - 1 by omega)
  have above := strictMono_unitsOf.monotone (show m + 1 ≤ n by omega)
  unfold upperEnd lowerEnd
  omega

/-- The quotient `num / den`, in units, lies between the midpoints of the magnitude with its two
neighbours, and on one of them only if the magnitude is even. -/
structure IsNearest (num den magnitude : Nat) : Prop where
  low : lowerEnd magnitude * den ≤ 2 * num
  high : 2 * num ≤ upperEnd magnitude * den
  odd : magnitude % 2 = 1 → lowerEnd magnitude * den ≠ 2 * num ∧ 2 * num ≠ upperEnd magnitude * den

/-- No quotient is nearest to two magnitudes. -/
theorem IsNearest.not_lt {num den m n : Nat} (pos : 0 < den) (nearest : IsNearest num den m)
    (other : IsNearest num den n) : ¬m < n := by
  intro lt
  have ends : lowerEnd n * den ≤ upperEnd m * den := Nat.le_trans other.low nearest.high
  by_cases next : m + 1 < n
  · exact absurd ends (Nat.not_le.2 (Nat.mul_lt_mul_of_pos_right (upperEnd_lt_lowerEnd next) pos))
  · -- the two neighbours share the midpoint, and one of them is odd
    have shared := Nat.mul_le_mul_right den (upperEnd_le_lowerEnd lt)
    have low := other.low
    have high := nearest.high
    rcases Nat.mod_two_eq_zero_or_one m with even | odd
    · have := (other.odd (by omega)).1
      omega
    · have := (nearest.odd odd).2
      omega

theorem IsNearest.unique {num den m n : Nat} (pos : 0 < den) (nearest : IsNearest num den m)
    (other : IsNearest num den n) : m = n :=
  Nat.le_antisymm (Nat.not_lt.1 (other.not_lt pos nearest))
    (Nat.not_lt.1 (nearest.not_lt pos other))

/-- Nearest is a matter of the quotient. -/
theorem isNearest_mul_iff {num den magnitude factor : Nat} (pos : 0 < factor) :
    IsNearest (num * factor) (den * factor) magnitude ↔ IsNearest num den magnitude := by
  have left (a : Nat) : a * (den * factor) = a * den * factor := (Nat.mul_assoc ..).symm
  have right : 2 * (num * factor) = 2 * num * factor := (Nat.mul_assoc ..).symm
  constructor
  · rintro ⟨low, high, odd⟩
    simp only [left, right, ne_eq, Nat.mul_left_inj (Nat.ne_of_gt pos)] at low high odd
    exact ⟨Nat.le_of_mul_le_mul_right low pos, Nat.le_of_mul_le_mul_right high pos, odd⟩
  · rintro ⟨low, high, odd⟩
    refine ⟨?_, ?_, ?_⟩
    all_goals simp only [left, right, ne_eq, Nat.mul_left_inj (Nat.ne_of_gt pos)]
    · exact Nat.mul_le_mul_right factor low
    · exact Nat.mul_le_mul_right factor high
    · exact odd

/-- The value of a magnitude is nearest to it. -/
theorem isNearest_unitsOf {den : Nat} (pos : 0 < den) (magnitude : Nat) :
    IsNearest (unitsOf magnitude * den) den magnitude := by
  have value : 2 * (unitsOf magnitude * den) = 2 * unitsOf magnitude * den :=
    (Nat.mul_assoc ..).symm
  have high := Nat.mul_lt_mul_of_pos_right (lt_upperEnd magnitude) pos
  refine ⟨?_, ?_, fun odd => ?_⟩
  · rw [value]
    exact Nat.mul_le_mul_right den (lowerEnd_le magnitude)
  · rw [value]
    exact Nat.le_of_lt high
  · have low := Nat.mul_lt_mul_of_pos_right (lowerEnd_lt (show 0 < magnitude by omega)) pos
    rw [value]
    exact ⟨Nat.ne_of_lt low, Nat.ne_of_lt high⟩

/-! ## Rounding -/

theorem roundDiv_eq_or (num den : Nat) :
    roundDiv num den = num / den ∨ roundDiv num den = num / den + 1 := by
  unfold roundDiv
  dsimp only
  repeat' split
  all_goals omega

/-- A half goes to the even neighbour. -/
theorem roundDiv_even {num den : Nat} (pos : 0 < den)
    (tie : 2 * num + den = 2 * (roundDiv num den * den) ∨
      2 * num = 2 * (roundDiv num den * den) + den) : roundDiv num den % 2 = 0 := by
  have split := Nat.div_add_mod num den
  have small := Nat.mod_lt num pos
  rw [Nat.mul_comm] at split
  unfold roundDiv at tie ⊢
  dsimp only at tie ⊢
  generalize num / den = quotient at *
  generalize num % den = remainder at *
  have next : (quotient + 1) * den = quotient * den + den := by rw [Nat.add_mul, Nat.one_mul]
  repeat' split
  all_goals
    simp only [*, if_true, if_false] at tie
    omega

section Grid

variable {shift significand : Nat}

theorem grid_mod_two : (shift * binade + significand) % 2 = significand % 2 := by
  have := binade_even
  rw [Nat.add_mod, Nat.mul_mod, this, Nat.mul_zero, Nat.zero_mod, Nat.zero_add, Nat.mod_mod]

/-- The midpoint above a significand is half a step up, or more at the carry. -/
theorem le_upperEnd_grid (small : significand ≤ 2 * binade)
    (normal : shift = 0 ∨ binade ≤ significand) :
    (2 * significand + 1) * Nat.pow 2 shift ≤ upperEnd (shift * binade + significand) := by
  unfold upperEnd
  rw [unitsOf_grid small normal]
  by_cases carry : significand = 2 * binade
  · rw [show shift * binade + significand + 1 = (shift + 1) * binade + (binade + 1) by
        rw [carry]; ring,
      unitsOf_grid (by have := binade_pos; omega) (Or.inr (by omega)), two_pow_succ, carry]
    nlinarith [two_pow_pos shift]
  · rw [Nat.add_assoc, unitsOf_grid (by omega) (by omega)]
    exact Nat.le_of_eq (by ring)

theorem upperEnd_grid (small : significand < 2 * binade)
    (normal : shift = 0 ∨ binade ≤ significand) :
    upperEnd (shift * binade + significand) = (2 * significand + 1) * Nat.pow 2 shift := by
  unfold upperEnd
  rw [Nat.add_assoc, unitsOf_grid (by omega) normal, unitsOf_grid (by omega) (by omega)]
  ring

/-- The midpoint below a significand is half a step down, unless the exponent changes there. -/
theorem lowerEnd_grid (pos : 0 < significand) (small : significand ≤ 2 * binade)
    (normal : shift = 0 ∨ binade < significand) :
    lowerEnd (shift * binade + significand) + Nat.pow 2 shift =
      2 * significand * Nat.pow 2 shift := by
  obtain ⟨less, rfl⟩ : ∃ less, significand = less + 1 := ⟨significand - 1, by omega⟩
  have value : unitsOf (shift * binade + (less + 1)) = (less + 1) * Nat.pow 2 shift :=
    unitsOf_grid small (by omega)
  have before : unitsOf (shift * binade + less) = less * Nat.pow 2 shift :=
    unitsOf_grid (by omega) (by omega)
  unfold lowerEnd
  rw [value, ← Nat.add_assoc, Nat.add_sub_cancel, before]
  ring

variable {num den : Nat} (pos : 0 < den) (small : significand ≤ 2 * binade)
  (normal : shift = 0 ∨ binade ≤ significand)
  (rounded : roundDiv num (den * Nat.pow 2 shift) = significand)

include pos small normal rounded

theorem rounded_le_upperEnd : 2 * num ≤ upperEnd (shift * binade + significand) * den := by
  have above := (roundDiv_near num (Nat.mul_pos pos (two_pow_pos shift))).2
  rw [rounded] at above
  calc 2 * num ≤ 2 * (significand * (den * Nat.pow 2 shift)) + den * Nat.pow 2 shift := above
    _ = (2 * significand + 1) * Nat.pow 2 shift * den := by ring
    _ ≤ upperEnd (shift * binade + significand) * den :=
      Nat.mul_le_mul_right den (le_upperEnd_grid small normal)

theorem lowerEnd_le_rounded (least : shift = 0 ∨ binade * (den * Nat.pow 2 shift) ≤ num) :
    lowerEnd (shift * binade + significand) * den ≤ 2 * num := by
  rcases Nat.eq_zero_or_pos significand with rfl | positive
  · obtain rfl : shift = 0 := by
      have := binade_pos
      omega
    simp [lowerEnd]
  by_cases inside : shift = 0 ∨ binade < significand
  · have below := (roundDiv_near num (Nat.mul_pos pos (two_pow_pos shift))).1
    rw [rounded] at below
    have lower := congrArg (· * den) (lowerEnd_grid positive small inside)
    have whole : 2 * significand * Nat.pow 2 shift * den =
        2 * (significand * (den * Nat.pow 2 shift)) := by ring
    have half : Nat.pow 2 shift * den = den * Nat.pow 2 shift := Nat.mul_comm ..
    simp only [Nat.add_mul] at lower
    omega
  · -- The significand is the least of its exponent, and the quotient is not below it.
    obtain rfl : significand = binade := by omega
    calc lowerEnd (shift * binade + binade) * den
        ≤ 2 * unitsOf (shift * binade + binade) * den := Nat.mul_le_mul_right den (lowerEnd_le _)
      _ = 2 * (binade * (den * Nat.pow 2 shift)) := by
        rw [unitsOf_grid small normal]
        ring
      _ ≤ 2 * num := by omega

/-- A quotient on a midpoint is not rounded to an odd significand. -/
theorem rounded_ne_midpoint (odd : significand % 2 = 1) :
    lowerEnd (shift * binade + significand) * den ≠ 2 * num ∧
      2 * num ≠ upperEnd (shift * binade + significand) * den := by
  have even (tie) := roundDiv_even (Nat.mul_pos pos (two_pow_pos shift))
    (tie : 2 * num + den * Nat.pow 2 shift = _ ∨ _)
  rw [rounded] at even
  have binade_even := binade_even
  have lower := congrArg (· * den) (lowerEnd_grid (show 0 < significand by omega) small
    (show shift = 0 ∨ binade < significand by omega))
  have upper := congrArg (· * den) (upperEnd_grid (show significand < 2 * binade by omega) normal)
  have whole : 2 * significand * Nat.pow 2 shift * den =
      2 * (significand * (den * Nat.pow 2 shift)) := by ring
  have half : Nat.pow 2 shift * den = den * Nat.pow 2 shift := Nat.mul_comm ..
  simp only [Nat.add_mul, Nat.one_mul] at lower upper
  constructor
  · intro tie
    have := even (Or.inl (by omega))
    omega
  · intro tie
    have := even (Or.inr (by omega))
    omega

/-- A quotient that rounds to a significand, in steps of its power of two, is nearest to the
magnitude of both. -/
theorem isNearest_grid (least : shift = 0 ∨ binade * (den * Nat.pow 2 shift) ≤ num) :
    IsNearest num den (shift * binade + significand) where
  low := lowerEnd_le_rounded pos small normal rounded least
  high := rounded_le_upperEnd pos small normal rounded
  odd odd := by
    rw [grid_mod_two] at odd
    exact rounded_ne_midpoint pos small normal rounded odd

end Grid

/-- The power of two by which a quotient is scaled down leaves 53 bits, or none is needed. -/
theorem roundDiv_shift (num : Nat) {den : Nat} (pos : 0 < den) :
    let shift := (num / den).log2 - 52
    let significand := roundDiv num (den * Nat.pow 2 shift)
    significand ≤ 2 * binade ∧ (shift = 0 ∨ binade ≤ significand) ∧
      (shift = 0 ∨ binade * (den * Nat.pow 2 shift) ≤ num) := by
  intro shift significand
  have near := roundDiv_eq_or num (den * Nat.pow 2 shift)
  have step_pos : 0 < den * Nat.pow 2 shift := Nat.mul_pos pos (two_pow_pos shift)
  have below : num / (den * Nat.pow 2 shift) < 2 * binade := by
    rw [← Nat.div_div_eq_div_mul, Nat.div_lt_iff_lt_mul (two_pow_pos shift)]
    calc num / den < Nat.pow 2 ((num / den).log2 + 1) := Nat.lt_log2_self
      _ ≤ Nat.pow 2 (53 + shift) := Nat.pow_le_pow_right (by decide) (by omega)
      _ = 2 * binade * Nat.pow 2 shift := Nat.pow_add ..
  refine ⟨by omega, ?_⟩
  rcases Nat.eq_zero_or_pos shift with none | scaled
  · exact ⟨Or.inl none, Or.inl none⟩
  have least : binade * (den * Nat.pow 2 shift) ≤ num := by
    have nonzero : num / den ≠ 0 := by
      intro zero
      simp [shift, zero] at scaled
    calc binade * (den * Nat.pow 2 shift)
        = binade * Nat.pow 2 shift * den := by ring
      _ = Nat.pow 2 (52 + shift) * den := congrArg (· * den) (Nat.pow_add 2 52 shift).symm
      _ = Nat.pow 2 (num / den).log2 * den := by rw [show 52 + shift = (num / den).log2 by omega]
      _ ≤ num / den * den := Nat.mul_le_mul_right den (Nat.log2_self_le nonzero)
      _ ≤ num := Nat.div_mul_le_self num den
  have quotient := (Nat.le_div_iff_mul_le step_pos).2 least
  exact ⟨Or.inr (by omega), Or.inr least⟩

/-- There is a nearest magnitude, and `nearestMagnitude` is that or the infinity below it. -/
theorem exists_isNearest (num : Nat) {den : Nat} (pos : 0 < den) : ∃ magnitude,
    IsNearest num den magnitude ∧ nearestMagnitude num den = min magnitude infinityMagnitude := by
  obtain ⟨small, normal, least⟩ := roundDiv_shift num pos
  exact ⟨_, isNearest_grid pos small normal rfl least, rfl⟩

theorem nearestMagnitude_eq_iff {num den magnitude : Nat} (pos : 0 < den)
    (finite : magnitude < infinityMagnitude) :
    nearestMagnitude num den = magnitude ↔ IsNearest num den magnitude := by
  obtain ⟨nearest, spec, value⟩ := exists_isNearest num pos
  rw [value]
  constructor
  · intro same
    obtain rfl : nearest = magnitude := by omega
    exact spec
  · intro other
    rw [spec.unique pos other]
    omega

/-- The value of a finite magnitude is not moved. -/
theorem nearestMagnitude_unitsOf {den magnitude : Nat} (pos : 0 < den)
    (finite : magnitude < infinityMagnitude) :
    nearestMagnitude (unitsOf magnitude * den) den = magnitude :=
  (nearestMagnitude_eq_iff pos finite).2 (isNearest_unitsOf pos magnitude)

/-- A quotient that is no greater than a value is not rounded beyond it. -/
theorem nearestMagnitude_le {num den magnitude : Nat} (pos : 0 < den)
    (le : num ≤ unitsOf magnitude * den) : nearestMagnitude num den ≤ magnitude := by
  obtain ⟨nearest, spec, value⟩ := exists_isNearest num pos
  rw [value]
  refine Nat.le_trans (Nat.min_le_left _ _) (Nat.not_lt.1 fun beyond => ?_)
  have low := spec.low
  have above := Nat.mul_lt_mul_of_pos_right
    (Nat.lt_of_lt_of_le (lt_upperEnd magnitude) (upperEnd_le_lowerEnd beyond)) pos
  rw [Nat.mul_assoc] at above
  omega

/-- Rounding is a matter of the quotient. -/
theorem nearestMagnitude_mul {num den factor : Nat} (pos : 0 < den) (factor_pos : 0 < factor) :
    nearestMagnitude (num * factor) (den * factor) = nearestMagnitude num den := by
  obtain ⟨nearest, spec, value⟩ := exists_isNearest num pos
  obtain ⟨nearest', spec', value'⟩ :=
    exists_isNearest (num * factor) (Nat.mul_pos pos factor_pos)
  rw [value, value', spec.unique pos ((isNearest_mul_iff factor_pos).1 spec')]

end BenchLog.Binary64
