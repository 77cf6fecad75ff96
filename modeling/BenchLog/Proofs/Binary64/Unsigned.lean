import BenchLog.Proofs.Binary64.Sums

/-!
# Numbers that are not negative

Sums, quotients and square roots of numbers that are not negative are such numbers, and so is the
square of any number (`IsUnsigned`): infinities of opposite sign never meet in a sum of squares, and an
infinity is multiplied by an infinity only. A sum starts from `-0`, which adds nothing
(`negativeZero_add`), so the sum of no terms is the only one with a sign (`isUnsigned_sum`).
-/

namespace BenchLog.Binary64

variable {x y : Binary64}

/-! ## Results that are numbers -/

theorem isNaN_neg (number : x.isNaN = false) : x.neg.isNaN = false := number

/-- A number makes no NaN of a finite one. -/
theorem isNaN_add_of_finite (finite : x.isFinite = true) (number : y.isNaN = false) :
    (add x y).isNaN = false := by
  unfold add
  rw [isNaN_of_isFinite finite, isInfinite_of_finite (isFinite_iff.1 finite), number]
  cases infinite : y.isInfinite with
  | true => simpa using number
  | false => simpa using isNaN_ofUnits _ _

theorem isNaN_sub_of_finite (finite : x.isFinite = true) (number : y.isNaN = false) :
    (sub x y).isNaN = false :=
  isNaN_add_of_finite finite (isNaN_neg number)

/-- A number over a finite one other than zero is a number, and its sign that of the quotient. -/
theorem div_number (number : x.isNaN = false) (finite : y.isFinite = true)
    (nonzero : y.isZero = false) :
    (div x y).isNaN = false ∧ (div x y).negative = (x.negative != y.negative) := by
  unfold div
  rw [number, isNaN_of_isFinite finite, isInfinite_of_finite (isFinite_iff.1 finite), nonzero]
  cases x.isInfinite with
  | true => exact ⟨rfl, rfl⟩
  | false => exact ⟨isNaN_ofUnitRatio _ _ _, rfl⟩

theorem isNaN_of_isInfinite (infinite : x.isInfinite = true) : x.isNaN = false :=
  isNaN_eq_false_iff.2 (Nat.le_of_eq (of_decide_eq_true infinite))

theorem isZero_of_isInfinite (infinite : x.isInfinite = true) : x.isZero = false := by
  have top : x.magnitude = infinityMagnitude := of_decide_eq_true infinite
  exact decide_eq_false (by rw [top]; decide)

/-- An infinity over a finite number is an infinity. -/
theorem isInfinite_div (infinite : x.isInfinite = true) (finite : y.isFinite = true) :
    (div x y).isInfinite = true := by
  unfold div
  rw [isNaN_of_isInfinite infinite, isNaN_of_isFinite finite, infinite,
    isInfinite_of_finite (isFinite_iff.1 finite)]
  exact decide_eq_true rfl

/-- The way from a finite number to an infinity is an infinity. -/
theorem isInfinite_sub (finite : x.isFinite = true) (infinite : y.isInfinite = true) :
    (sub x y).isInfinite = true := by
  have opposite : y.neg.isInfinite = true := infinite
  have whole : sub x y = y.neg := by
    simp [sub, add, isNaN_of_isFinite finite, isInfinite_of_finite (isFinite_iff.1 finite),
      isNaN_of_isInfinite opposite, opposite]
  rw [whole, opposite]

/-! ## The neutral element of sums -/

/-- A double is the sum of its own units. -/
theorem ofUnits_signedUnits (number : x.isNaN = false) : ofUnits x.negative x.signedUnits = x := by
  have sign : (if x.signedUnits = 0 then x.negative else decide (x.signedUnits < 0)) = x.negative := by
    rw [signedUnits_eq]
    cases x.negative with
    | true => simp [Nat.pos_iff_ne_zero]
    | false => rw [signed_false, decide_eq_false (not_lt.2 (Int.natCast_nonneg _)), ite_self]
  rw [ofUnits, sign, natAbs_signedUnits]
  simpa using ofUnitRatio_units Nat.one_pos number

theorem negativeZero_add (number : x.isNaN = false) : add negativeZero x = x := by
  by_cases infinite : x.isInfinite = true
  · simp [add, infinite, number, show negativeZero.isNaN = false by decide,
      show negativeZero.isInfinite = false by decide]
  · have finite := isFinite_of_number number (Bool.eq_false_iff.2 infinite)
    have nothing : negativeZero.signedUnits = 0 := by decide
    rw [add_of_finite (by decide) finite, nothing, Int.zero_add]
    exact ofUnits_signedUnits number

/-! ## Numbers that are not negative -/

/-- A number that is not negative, and no negative zero. -/
structure IsUnsigned (x : Binary64) : Prop where
  number : x.isNaN = false
  sign : x.negative = false

theorem isUnsigned_zero : IsUnsigned zero := ⟨by decide, rfl⟩

theorem isUnsigned_square (number : x.isNaN = false) : IsUnsigned (mul x x) := by
  unfold mul
  rw [number, bne_self_eq_false]
  cases infinite : x.isInfinite with
  | false => exact ⟨isNaN_ofUnitRatio _ _ _, rfl⟩
  | true =>
    rw [isZero_of_isInfinite infinite]
    exact ⟨rfl, rfl⟩

namespace IsUnsigned

theorem nonneg (unsigned : IsUnsigned x) : 0 ≤ x.signedUnits := by
  rw [signedUnits_eq, unsigned.sign]
  exact Int.natCast_nonneg _

theorem eq_infinity (unsigned : IsUnsigned x) (infinite : x.isInfinite = true) : x = infinity := by
  have top : x.magnitude = infinityMagnitude := of_decide_eq_true infinite
  apply rank_injective
  rw [rank, rank, unsigned.sign, top]
  rfl

theorem add (left : IsUnsigned x) (right : IsUnsigned y) : IsUnsigned (add x y) := by
  unfold Binary64.add
  rw [left.number, right.number, left.sign, right.sign]
  cases x_infinite : x.isInfinite with
  | true => simpa using left
  | false =>
    cases y_infinite : y.isInfinite with
    | true => simpa using right
    | false =>
      have total := Int.add_nonneg left.nonneg right.nonneg
      refine ⟨isNaN_ofUnits _ _, ?_⟩
      show (if _ = 0 then false else decide (x.signedUnits + y.signedUnits < 0)) = false
      rw [decide_eq_false (not_lt.2 total), ite_self]

theorem div (left : IsUnsigned x) (right : IsUnsigned y) (finite : y.isFinite = true)
    (nonzero : y.isZero = false) : IsUnsigned (div x y) := by
  obtain ⟨number, sign⟩ := div_number left.number finite nonzero
  rw [left.sign, right.sign] at sign
  exact ⟨number, sign⟩

theorem sqrt (unsigned : IsUnsigned x) : IsUnsigned (sqrt x) := by
  unfold Binary64.sqrt
  rw [unsigned.number, unsigned.sign]
  cases x.isZero with
  | true => exact unsigned
  | false =>
    cases x.isInfinite with
    | true => exact unsigned
    | false => exact ⟨isNaN_ofUnitRatio _ _ _, rfl⟩

end IsUnsigned

@[simp] theorem ofUnitRatio_zero (den : Nat) : ofUnitRatio false 0 den = zero := by
  simp [ofUnitRatio, zero]

theorem zero_div_of_finite (unsigned : IsUnsigned x) (finite : x.isFinite = true)
    (nonzero : x.isZero = false) : div zero x = zero := by
  have nothing : zero.units = 0 := by decide
  rw [div_of_finite (by decide) (isFinite_iff.1 finite) nonzero, unsigned.sign, nothing, ofRatio,
    Nat.zero_mul]
  exact ofUnitRatio_zero _

/-- A sum of some numbers that are not negative is not negative. -/
theorem isUnsigned_sum {xs : List Binary64} (nonempty : xs ≠ []) (each : ∀ x ∈ xs, IsUnsigned x) :
    IsUnsigned (sum xs) := by
  induction xs using List.reverseRecOn with
  | nil => exact absurd rfl nonempty
  | append_singleton xs x ih =>
    have last := each x (by simp)
    rw [sum_concat]
    cases xs with
    | nil =>
      show IsUnsigned (Binary64.add negativeZero x)
      rwa [negativeZero_add last.number]
    | cons first more =>
      have before := ih (List.cons_ne_nil first more) fun y mem => each y (List.mem_append_left _ mem)
      exact before.add last

end BenchLog.Binary64
