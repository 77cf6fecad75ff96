import BenchLog.Proofs.Decimal.Fixed
import BenchLog.Report.Table

/-!
# Figures in order

A figure of the table has four decimal places between -1 and 1, zero apart, and two elsewhere, and is off
by no more than half of its last place. Between two values whose figures have different numbers of places
lies -1, 0 or 1 (`Table.exists_whole_between`), and no value is rounded across a whole number. So figures
are in the order of their values, and so are those of a row (`Table.figure_ordered`).
-/

namespace BenchLog

open Binary64

namespace Table

/-- Does the text spell the number? -/
def Prints (text : List Char) (q : ℚ) : Prop := ∃ negative, SpellsDecimal negative q text

/-- The decimal places of the figure for a value. -/
def figurePlaces (value : ℚ) : Nat := if 0 < |value| ∧ |value| < 1 then 4 else 2

variable {x v w : Binary64}

theorem figure_eq (finite : x.isFinite = true) : figure x = x.fixed (figurePlaces x.value) := by
  have number := isNaN_of_isFinite finite
  have nonzero : (!eq x zero) = true ↔ 0 < |x.value| := by
    rw [Bool.not_eq_true', Bool.eq_false_iff, ne_eq, eq_iff number (by decide), ← value_eq_iff,
      value_zero, abs_pos]
  have below : lt x.abs (ofNat 1) = true ↔ |x.value| < 1 := by
    have number' : x.abs.isNaN = false := number
    rw [lt_iff_value number' (by decide +kernel), value_abs, value_count (by decide), Nat.cast_one]
  unfold figure figurePlaces
  rw [apply_ite (x.fixed ·)]
  simp only [Bool.and_eq_true, nonzero, below]

/-- A figure spells one number, the value rounded to its places. -/
theorem prints_figure_iff (finite : x.isFinite = true) {q : ℚ} :
    Prints (figure x) q ↔ q = fixedValue (figurePlaces x.value) x := by
  have pos : 0 < figurePlaces x.value := by
    unfold figurePlaces
    split <;> decide
  have spelled := spells_fixed finite pos
  rw [← figure_eq finite] at spelled
  constructor
  · rintro ⟨negative, other⟩
    exact other.unique spelled
  · rintro rfl
    exact ⟨x.negative, spelled⟩

theorem figurePlaces_cases (a : ℚ) :
    figurePlaces a = 4 ∧ -1 < a ∧ a < 1 ∨ figurePlaces a = 2 ∧ (a = 0 ∨ 1 ≤ a ∨ a ≤ -1) := by
  unfold figurePlaces
  split
  · next small => exact Or.inl ⟨rfl, abs_lt.1 small.2⟩
  · next other =>
    refine Or.inr ⟨rfl, ?_⟩
    rw [not_and_or, abs_pos, not_not, not_lt, le_abs] at other
    rcases other with zero | above | below
    · exact Or.inl zero
    · exact Or.inr (Or.inl above)
    · exact Or.inr (Or.inr (by linarith))

/-- Where the number of places changes, there is a whole number. -/
theorem exists_whole_between {a b : ℚ} (le : a ≤ b) (differ : figurePlaces a ≠ figurePlaces b) :
    ∃ k : Int, k.natAbs ≤ 1 ∧ a ≤ k ∧ k ≤ b := by
  rcases figurePlaces_cases a with ⟨four, low, high⟩ | ⟨two, far⟩ <;>
    rcases figurePlaces_cases b with ⟨four', low', high'⟩ | ⟨two', far'⟩
  · exact absurd (four.trans four'.symm) differ
  · rcases far' with rfl | above | below
    · exact ⟨0, by decide, by simpa using le, by simp⟩
    · exact ⟨1, by decide, by simpa using high.le, by simpa using above⟩
    · linarith
  · rcases far with rfl | above | below
    · exact ⟨0, by decide, by simp, by simpa using le⟩
    · linarith
    · exact ⟨-1, by decide, by simpa using below, by simpa using low'.le⟩
  · exact absurd (two.trans two'.symm) differ

theorem fixedValue_figurePlaces_mono (le : v.value ≤ w.value) :
    fixedValue (figurePlaces v.value) v ≤ fixedValue (figurePlaces w.value) w := by
  by_cases same : figurePlaces v.value = figurePlaces w.value
  · rw [same]
    apply fixedValue_mono
    rw [value, value, div_le_div_iff_of_pos_right cast_unitsPerOne_pos] at le
    exact_mod_cast le
  · obtain ⟨k, small, above, below⟩ := exists_whole_between le same
    have small' : k.natAbs ≤ 2 ^ 53 := by omega
    exact (fixedValue_le_whole small' above).trans (whole_le_fixedValue small' below)

/-- The values in the first columns of a row. -/
def rowValues (result : MetricResult) : List Binary64 :=
  [result.mean, result.droppedMin, result.droppedMax]

theorem metricRow_eq (width : Nat) (result : MetricResult) :
    ∃ rest, metricRow width result = ' ' :: ' ' :: (padRight width result.name.toList ++
      bar ++ padLeft 16 (figure result.mean) ++ bar ++ padLeft 14 (figure result.droppedMin) ++
      bar ++ padLeft 14 (figure result.droppedMax) ++ bar ++ rest) := by
  refine ⟨padLeft 12 (figure result.spread.stdDev) ++ bar ++
    padLeft 7 (percentage result.spread.coefficientOfVariation) ++ ['\n'], ?_⟩
  simp [metricRow, row]

/-- The figure of a finite value spells one number, which is off by no more than half of its last place,
and a lesser value has no greater figure. So the figures in the first columns of a row, those of the mean
and of the dropped samples, are in the order of these values. -/
theorem figure_ordered :
    (∀ x : Binary64, x.isFinite = true → ∃ q, (∀ r, Prints (figure x) r ↔ r = q) ∧
      (0 < |x.value| ∧ |x.value| < 1 → |q - x.value| ≤ 5 / 10 ^ 5) ∧
      (¬(0 < |x.value| ∧ |x.value| < 1) → |q - x.value| ≤ 5 / 10 ^ 3)) ∧
    (∀ v w : Binary64, v.isFinite = true → w.isFinite = true → le v w = true →
      ∀ q r, Prints (figure v) q → Prints (figure w) r → q ≤ r) ∧
    ∀ (width : Nat) (result : MetricResult), (∀ x ∈ rowValues result, x.isFinite = true) →
      (∃ rest, metricRow width result = ' ' :: ' ' :: (padRight width result.name.toList ++
        bar ++ padLeft 16 (figure result.mean) ++ bar ++ padLeft 14 (figure result.droppedMin) ++
        bar ++ padLeft 14 (figure result.droppedMax) ++ bar ++ rest)) ∧
      ∀ x ∈ rowValues result, ∀ y ∈ rowValues result, le x y = true →
        ∃ q r, Prints (figure x) q ∧ Prints (figure y) r ∧ q ≤ r := by
  have ordered {v w : Binary64} (v_finite : v.isFinite = true) (w_finite : w.isFinite = true)
      (order : le v w = true) :
      fixedValue (figurePlaces v.value) v ≤ fixedValue (figurePlaces w.value) w :=
    fixedValue_figurePlaces_mono
      ((le_iff_value (isNaN_of_isFinite v_finite) (isNaN_of_isFinite w_finite)).1 order)
  refine ⟨fun x finite => ⟨_, fun r => prints_figure_iff finite, fun small => ?_, fun other => ?_⟩,
    fun v w v_finite w_finite order q r left right => ?_,
    fun width result finite => ⟨metricRow_eq width result, fun x mem y mem' order => ?_⟩⟩
  · rw [figurePlaces, if_pos small]
    exact (abs_fixedValue_sub_le 4 x).trans_eq (by norm_num)
  · rw [figurePlaces, if_neg other]
    exact (abs_fixedValue_sub_le 2 x).trans_eq (by norm_num)
  · rw [(prints_figure_iff v_finite).1 left, (prints_figure_iff w_finite).1 right]
    exact ordered v_finite w_finite order
  · have x_finite := finite x mem
    have y_finite := finite y mem'
    exact ⟨_, _, (prints_figure_iff x_finite).2 rfl, (prints_figure_iff y_finite).2 rfl,
      ordered x_finite y_finite order⟩

/-- The greatest number below one is printed as one with four places, and one with two. -/
theorem figure_ordered_below_one :
    ∃ below : Binary64, below.isFinite = true ∧ lt below (ofNat 1) = true ∧
      figure below = "1.0000".toList ∧ figure (ofNat 1) = "1.00".toList ∧
      ∀ q r, Prints (figure below) q → Prints (figure (ofNat 1)) r → q ≤ r := by
  refine ⟨⟨false, 1023 * binade - 1, by decide⟩, by decide, by decide +kernel, by decide +kernel,
    by decide +kernel, figure_ordered.2.1 _ _ (by decide) (by decide +kernel) (by decide +kernel)⟩

end Table

end BenchLog
