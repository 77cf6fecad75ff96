import BenchLog.Binary64.Arithmetic
import BenchLog.Binary64.Order
import BenchLog.Proofs.Binary64.Whole

/-!
# Order of values

The numeric comparisons are those of the values in units (`le_iff`, `eq_iff`), and the total order
refines them (`signedUnits_le_of_totalLe`).

Rounding keeps the order (`ofUnitRatio_mono`, `magnitude_mul_mono`) and does not move a double
(`ofUnitRatio_units`); so no quotient is rounded beyond a double that it does not exceed
(`ofUnitRatio_le`, `le_ofUnitRatio`), and neither is a whole number of units (`ofUnits_le`,
`le_ofUnits`).
-/

namespace BenchLog.Binary64

open Decimal (lowerEnd upperEnd)

/-- A whole number with a sign. -/
def signed (negative : Bool) (n : Nat) : Int := if negative then -(n : Int) else n

@[simp] theorem signed_true (n : Nat) : signed true n = -(n : Int) := rfl
@[simp] theorem signed_false (n : Nat) : signed false n = n := rfl

theorem signed_mul (negative : Bool) (n k : Nat) : signed negative (n * k) = signed negative n * k := by
  cases negative <;> simp

/-- What keeps the order of naturals, and zero, keeps that of whole numbers if signs stay. -/
theorem signed_mono {f : Nat → Nat} (mono : Monotone f) (zero : f 0 = 0) {negative negative' : Bool}
    {m n : Nat} (le : signed negative m ≤ signed negative' n) :
    signed negative (f m) ≤ signed negative' (f n) := by
  have forward (below : m ≤ n) := mono below
  have backward (below : n ≤ m) := mono below
  cases negative <;> cases negative' <;> simp only [signed_true, signed_false] at *
  · have := forward (by omega)
    omega
  · obtain ⟨rfl, rfl⟩ : m = 0 ∧ n = 0 := by omega
    simp [zero]
  · omega
  · have := backward (by omega)
    omega

theorem signedUnits_eq (x : Binary64) : x.signedUnits = signed x.negative x.units := rfl

theorem natAbs_signedUnits (x : Binary64) : x.signedUnits.natAbs = x.units := by
  rw [signedUnits_eq]
  cases x.negative <;> simp

theorem signedUnits_neg (x : Binary64) : x.neg.signedUnits = -x.signedUnits := by
  obtain ⟨negative, magnitude, _⟩ := x
  cases negative <;> simp [signedUnits, neg, units]

/-! ## Comparisons -/

theorem isNaN_eq_false_iff {x : Binary64} : x.isNaN = false ↔ x.magnitude ≤ infinityMagnitude := by
  simp [isNaN]

theorem isNaN_of_isFinite {x : Binary64} (finite : x.isFinite = true) : x.isNaN = false :=
  isNaN_of_finite (isFinite_iff.1 finite)

/-- The places of two patterns are in the order of their values. -/
theorem level_le_iff (x y : Binary64) : x.level ≤ y.level ↔ x.signedUnits ≤ y.signedUnits := by
  have order (m n : Nat) : unitsOf m ≤ unitsOf n ↔ m ≤ n := strictMono_unitsOf.le_iff_le
  have forward := order x.magnitude y.magnitude
  have backward := order y.magnitude x.magnitude
  have zero (m : Nat) : unitsOf m = 0 ↔ m = 0 := by
    have least := order m 0
    rw [unitsOf_zero] at least
    omega
  have at_x := zero x.magnitude
  have at_y := zero y.magnitude
  unfold level signedUnits units
  cases x.negative <;> cases y.negative <;> simp only [if_true, if_false, Bool.false_eq_true]
  all_goals omega

theorem le_iff {x y : Binary64} (x_number : x.isNaN = false) (y_number : y.isNaN = false) :
    le x y = true ↔ x.signedUnits ≤ y.signedUnits := by
  simp [le, x_number, y_number, level_le_iff]

theorem eq_iff {x y : Binary64} (x_number : x.isNaN = false) (y_number : y.isNaN = false) :
    eq x y = true ↔ x.signedUnits = y.signedUnits := by
  have forward := level_le_iff x y
  have backward := level_le_iff y x
  simp only [eq, x_number, y_number, Bool.not_false, Bool.true_and, decide_eq_true_eq]
  omega

theorem eq_zero_eq_isZero {x : Binary64} (number : x.isNaN = false) : eq x zero = x.isZero := by
  have apart : x.level = 0 ↔ x.magnitude = 0 := by
    unfold level
    split_ifs <;> omega
  simp [eq, number, isZero, show zero.isNaN = false by decide, show zero.level = 0 by decide, apart]

theorem le_of_le_of_le {x y z : Binary64} (first : le x y = true) (second : le y z = true) :
    le x z = true := by
  simp only [le, Bool.and_eq_true, decide_eq_true_eq] at first second ⊢
  exact ⟨⟨first.1.1, second.1.2⟩, first.2.trans second.2⟩

/-- The total order refines the order of values. -/
theorem signedUnits_le_of_totalLe {x y : Binary64} (below : totalLe x y = true) :
    x.signedUnits ≤ y.signedUnits := by
  have ranks : x.rank ≤ y.rank := of_decide_eq_true below
  rw [← level_le_iff]
  obtain ⟨negative, magnitude, _⟩ := x
  obtain ⟨negative', magnitude', _⟩ := y
  cases negative <;> cases negative' <;>
    simp only [rank, level, if_true, if_false, Bool.false_eq_true] at ranks ⊢
  all_goals omega

/-- A positive pattern is above all patterns of no greater magnitude. -/
theorem totalLe_of_positive {x y : Binary64} (positive : y.negative = false)
    (le : x.magnitude ≤ y.magnitude) : totalLe x y = true := by
  apply decide_eq_true
  unfold rank
  rw [positive]
  cases x.negative <;> simp only [if_true, if_false, Bool.false_eq_true] <;> omega

theorem totalLe_of_negative {x y : Binary64} (negative : x.negative = true)
    (le : y.magnitude ≤ x.magnitude) : totalLe x y = true := by
  apply decide_eq_true
  unfold rank
  rw [negative]
  cases y.negative <;> simp only [if_true, if_false, Bool.false_eq_true] <;> omega

theorem signedUnits_le_infinity {x : Binary64} (finite : x.isFinite = true) :
    x.signedUnits ≤ infinity.signedUnits := by
  have below := strictMono_unitsOf (isFinite_iff.1 finite)
  have top : infinity.signedUnits = unitsOf infinityMagnitude := rfl
  have size := natAbs_signedUnits x
  rw [units] at size
  omega

/-! ## Rounding keeps the order -/

theorem nearestMagnitude_mono {num num' den : Nat} (pos : 0 < den) (le : num ≤ num') :
    nearestMagnitude num den ≤ nearestMagnitude num' den := by
  obtain ⟨m, spec, value⟩ := exists_isNearest num pos
  obtain ⟨m', spec', value'⟩ := exists_isNearest num' pos
  rw [value, value']
  refine min_le_min_right _ (Nat.not_lt.1 fun beyond => Nat.ne_of_lt beyond ?_)
  -- The smaller quotient would be nearest to the smaller magnitude as well.
  have ends := Nat.mul_le_mul_right den (upperEnd_le_lowerEnd beyond)
  have inside := Nat.mul_lt_mul_of_pos_right
    (Nat.lt_of_le_of_lt (lowerEnd_le m') (lt_upperEnd m')) pos
  have low := spec.low
  have high := spec'.high
  refine IsNearest.unique pos ⟨by omega, by omega, fun odd => ?_⟩ spec
  have apart := (spec'.odd odd).2
  constructor <;> omega

theorem magnitude_ofNat_mono {m n : Nat} (le : m ≤ n) :
    (ofNat m).magnitude ≤ (ofNat n).magnitude :=
  nearestMagnitude_mono Nat.one_pos (Nat.mul_le_mul_right _ le)

/-- A product grows with its factors. -/
theorem magnitude_mul_mono {x y x' y' : Binary64} (finite : x'.magnitude < infinityMagnitude)
    (finite' : y'.magnitude < infinityMagnitude) (le : x.magnitude ≤ x'.magnitude)
    (le' : y.magnitude ≤ y'.magnitude) : (x.mul y).magnitude ≤ (x'.mul y').magnitude := by
  rw [mul_of_finite (Nat.lt_of_le_of_lt le finite) (Nat.lt_of_le_of_lt le' finite'),
    mul_of_finite finite finite']
  exact nearestMagnitude_mono unitsPerOne_pos (Nat.mul_le_mul (strictMono_unitsOf.monotone le)
    (strictMono_unitsOf.monotone le'))

@[simp] theorem nearestMagnitude_zero (den : Nat) : nearestMagnitude 0 den = 0 := by
  simp [nearestMagnitude, roundDiv]

section Quotient

variable {negative negative' : Bool} {num num' den : Nat} (pos : 0 < den)

include pos

/-- A smaller quotient is rounded to no greater a double. -/
theorem ofUnitRatio_mono (le : signed negative num ≤ signed negative' num') :
    (ofUnitRatio negative num den).signedUnits ≤ (ofUnitRatio negative' num' den).signedUnits := by
  have mono : Monotone fun num => unitsOf (nearestMagnitude num den) :=
    fun _ _ below => strictMono_unitsOf.monotone (nearestMagnitude_mono pos below)
  exact signed_mono mono (by simp) le

/-- A double is its own rounding. -/
theorem ofUnitRatio_units {x : Binary64} (number : x.isNaN = false) :
    ofUnitRatio x.negative (x.units * den) den = x := by
  have bound := isNaN_eq_false_iff.1 number
  have nearest : nearestMagnitude (x.units * den) den = x.magnitude := by
    obtain ⟨nearest, spec, value⟩ := exists_isNearest (x.units * den) pos
    rw [value, spec.unique pos (isNearest_unitsOf pos x.magnitude)]
    exact Nat.min_eq_left bound
  obtain ⟨sign, magnitude, _⟩ := x
  simp only [ofUnitRatio] at nearest ⊢
  simp only [nearest]

/-- A quotient is not rounded beyond a double that it does not exceed. -/
theorem ofUnitRatio_le {x : Binary64} (number : x.isNaN = false)
    (le : signed negative num ≤ x.signedUnits * den) :
    (ofUnitRatio negative num den).signedUnits ≤ x.signedUnits := by
  conv_rhs => rw [← ofUnitRatio_units pos number]
  apply ofUnitRatio_mono pos
  rwa [signed_mul, ← signedUnits_eq]

theorem le_ofUnitRatio {x : Binary64} (number : x.isNaN = false)
    (le : x.signedUnits * den ≤ signed negative num) :
    x.signedUnits ≤ (ofUnitRatio negative num den).signedUnits := by
  conv_lhs => rw [← ofUnitRatio_units pos number]
  apply ofUnitRatio_mono pos
  rwa [signed_mul, ← signedUnits_eq]

end Quotient

theorem isNaN_ofUnitRatio (negative : Bool) (num den : Nat) :
    (ofUnitRatio negative num den).isNaN = false :=
  isNaN_eq_false_iff.2 (Nat.min_le_right _ _)

/-! ## Sums and quotients -/

/-- The sum of finite numbers is the exact sum, rounded once. -/
theorem add_of_finite {x y : Binary64} (x_finite : x.isFinite = true) (y_finite : y.isFinite = true) :
    add x y = ofUnits (x.negative && y.negative) (x.signedUnits + y.signedUnits) := by
  simp [add, isNaN_of_finite, isInfinite_of_finite, isFinite_iff.1 x_finite, isFinite_iff.1 y_finite]

theorem isNaN_ofUnits (zeroSign : Bool) (n : Int) : (ofUnits zeroSign n).isNaN = false :=
  isNaN_ofUnitRatio _ _ _

theorem signed_decide (n : Int) : signed (decide (n < 0)) n.natAbs = n := by
  by_cases negative : n < 0
  · rw [decide_eq_true negative, signed_true]
    omega
  · rw [decide_eq_false negative, signed_false]
    omega

theorem signed_sign (zeroSign : Bool) (n : Int) :
    signed (if n = 0 then zeroSign else decide (n < 0)) n.natAbs = n := by
  by_cases zero : n = 0
  · cases zeroSign <;> simp [zero]
  · rw [if_neg zero, signed_decide]

theorem ofUnits_mono (zeroSign zeroSign' : Bool) {n n' : Int} (le : n ≤ n') :
    (ofUnits zeroSign n).signedUnits ≤ (ofUnits zeroSign' n').signedUnits := by
  apply ofUnitRatio_mono Nat.one_pos
  rwa [signed_sign, signed_sign]

theorem ofUnits_le {x : Binary64} (number : x.isNaN = false) (zeroSign : Bool) {n : Int}
    (le : n ≤ x.signedUnits) : (ofUnits zeroSign n).signedUnits ≤ x.signedUnits := by
  apply ofUnitRatio_le Nat.one_pos number
  rw [signed_sign]
  simpa using le

theorem le_ofUnits {x : Binary64} (number : x.isNaN = false) (zeroSign : Bool) {n : Int}
    (le : x.signedUnits ≤ n) : x.signedUnits ≤ (ofUnits zeroSign n).signedUnits := by
  apply le_ofUnitRatio Nat.one_pos number
  rw [signed_sign]
  simpa using le

end BenchLog.Binary64
