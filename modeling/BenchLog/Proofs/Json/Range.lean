import BenchLog.Proofs.Binary64.Ordering
import BenchLog.Proofs.Decimal.Fewest
import BenchLog.Proofs.Json.Doubles

/-!
# Every finite double is read as something

The digits that a double is written with and their power of ten are rounded to doubles each, and what
they come to is rounded again. A quotient is never too large (`isSome_scaled?_of_neg`), but a product
might be. Since the decimal rounds to a finite double, there is a greatest number of digits that can
stand before so many zeros (`digits_mul_pow_le`), and even these have a finite product
(`isFinite_digitLimit`). That holds of all doubles but the greatest, whose digits are a little more and
are looked at by themselves. So every finite double is read as some double (`isSome_toBinary64?`),
if not always as itself.
-/

namespace BenchLog.Json.Number

open Binary64 (infinityMagnitude unitsOf unitsPerOne)
open Decimal (shortest upperEnd)

/-! ## Scaling -/

theorem isSome_scaled?_of_neg (x : Binary64) {exponent : Int} (negative : exponent < 0) :
    (scaled? x exponent).isSome := by
  fun_induction scaled? x exponent with
  | case1 => omega
  | case2 => omega
  | case3 => rfl
  | case4 => rfl
  | case5 => omega
  | case6 _ _ far _ _ ih =>
    unfold greatestPower at far ih
    exact ih (by omega)

/-- No shortest decimal of a double below the greatest has more than these digits before so many
zeros. -/
def digitLimit (zeros : Nat) : Nat :=
  min (Nat.pow 10 17) (upperEnd (infinityMagnitude - 2) / (2 * unitsPerOne * Nat.pow 10 zeros))

theorem isFinite_digitLimit : ∀ more < 18,
    (Binary64.ofNat (digitLimit (291 + more))).magnitude < infinityMagnitude ∧
      (powerOfTen (291 + more)).magnitude < infinityMagnitude ∧
      ((Binary64.ofNat (digitLimit (291 + more))).mul (powerOfTen (291 + more))).magnitude <
        infinityMagnitude := by
  decide +kernel

theorem isSome_scaled?_of_finite {x : Binary64} {zeros : Nat} (few : zeros < 309)
    (finite : (x.mul (powerOfTen zeros)).magnitude < infinityMagnitude) :
    (scaled? x zeros).isSome := by
  rw [scaled?, if_pos (by unfold greatestPower; omega), if_pos (by omega)]
  dsimp only [Int.natAbs_natCast]
  rw [Binary64.isInfinite_of_finite finite]
  rfl

/-- Rounding the digits, the power of ten and their product does not lead out of range. -/
theorem isSome_scaled?_of_le {digits zeros : Nat} (few : zeros < 309)
    (less : digits ≤ digitLimit zeros) : (scaled? (.ofNat digits) zeros).isSome := by
  obtain ⟨more, small, near, less'⟩ : ∃ more < 18, zeros ≤ 291 + more ∧
      digits ≤ digitLimit (291 + more) := by
    -- before fewer zeros seventeen digits come to less than before 291
    rcases Nat.lt_or_ge zeros 291 with fewer | many
    · have all : digitLimit 291 = Nat.pow 10 17 := by decide +kernel
      exact ⟨0, by decide, by omega, all ▸ Nat.le_trans less (Nat.min_le_left _ _)⟩
    · obtain ⟨more, rfl⟩ : ∃ more, zeros = 291 + more := ⟨zeros - 291, by omega⟩
      exact ⟨more, by omega, Nat.le_refl _, less⟩
  obtain ⟨digits_finite, power_finite, product_finite⟩ := isFinite_digitLimit more small
  have power_le : (powerOfTen zeros).magnitude ≤ (powerOfTen (291 + more)).magnitude :=
    Binary64.magnitude_ofNat_mono (Nat.pow_le_pow_right (by decide) near)
  exact isSome_scaled?_of_finite few (Nat.lt_of_le_of_lt (Binary64.magnitude_mul_mono digits_finite
    power_finite (Binary64.magnitude_ofNat_mono less') power_le) product_finite)

/-! ## The shortest decimal -/

/-- A decimal with zeros behind its digits does not exceed what rounds to the magnitude. -/
theorem digits_mul_pow_le {d : Decimal} {zeros magnitude limit : Nat} (up : d.exponent = zeros)
    (rounds : d.roundsTo magnitude = true) (le : magnitude ≤ limit) :
    d.digits * (2 * unitsPerOne * Nat.pow 10 zeros) ≤ upperEnd limit := by
  have high := ((Decimal.roundsTo_iff d magnitude).1 rounds).high
  rw [Decimal.numerator, Decimal.denominator, up, Int.toNat_natCast,
    show (-(zeros : Int)).toNat = 0 by omega, show Nat.pow 10 0 = 1 from rfl, Nat.mul_one] at high
  calc d.digits * (2 * unitsPerOne * Nat.pow 10 zeros)
      = 2 * (d.digits * Nat.pow 10 zeros * unitsPerOne) := by ring
    _ ≤ upperEnd magnitude := high
    _ ≤ upperEnd limit := Nat.add_le_add (Binary64.strictMono_unitsOf.monotone le)
        (Binary64.strictMono_unitsOf.monotone (Nat.succ_le_succ le))

section Shortest

variable {magnitude : Nat} (finite : magnitude < infinityMagnitude)

include finite

theorem exponent_shortest_lt (tie : Decimal.Tie) : (shortest tie magnitude).exponent < 309 := by
  rcases Nat.eq_zero_or_pos magnitude with rfl | pos
  · exact (by decide : (0 : Int) < 309)
  · refine Int.not_le.1 fun large => ?_
    obtain ⟨zeros, up⟩ := Int.eq_ofNat_of_zero_le (Int.le_trans (by decide) large)
    have rounds := Decimal.roundsTo_shortest tie magnitude
    have some := Nat.pos_of_ne_zero (Decimal.digits_ne_zero_of_roundsTo pos rounds)
    obtain ⟨least, is309, beyond⟩ : ∃ least, least = 309 ∧
        upperEnd (infinityMagnitude - 1) < 2 * unitsPerOne * Nat.pow 10 least :=
      ⟨309, rfl, by decide +kernel⟩
    refine Nat.lt_irrefl _ (Nat.lt_of_lt_of_le beyond ?_)
    calc 2 * unitsPerOne * Nat.pow 10 least
        ≤ 2 * unitsPerOne * Nat.pow 10 zeros :=
          Nat.mul_le_mul_left _ (Nat.pow_le_pow_right (by decide) (by omega))
      _ ≤ (shortest tie magnitude).digits * (2 * unitsPerOne * Nat.pow 10 zeros) :=
          Nat.le_mul_of_pos_left _ some
      _ ≤ upperEnd (infinityMagnitude - 1) :=
          digits_mul_pow_le up rounds (Nat.le_sub_one_of_lt finite)

/-- The digits of the shortest decimal can be scaled. -/
theorem isSome_scaled?_shortest :
    (scaled? (.ofNat (shortest .even magnitude).digits) (shortest .even magnitude).exponent).isSome := by
  rcases lt_or_ge (shortest .even magnitude).exponent 0 with below | up
  · exact isSome_scaled?_of_neg _ below
  · have few := exponent_shortest_lt finite .even
    obtain ⟨zeros, up⟩ := Int.eq_ofNat_of_zero_le up
    rw [up] at few ⊢
    rcases Nat.lt_or_eq_of_le (Nat.le_sub_one_of_lt finite) with less | rfl
    · refine isSome_scaled?_of_le (by omega)
        (Nat.le_min.2 ⟨Decimal.digits_shortest_le .even magnitude, ?_⟩)
      have ones : 0 < 2 * unitsPerOne * Nat.pow 10 zeros :=
        Nat.mul_pos (Nat.mul_pos (by decide) Binary64.unitsPerOne_pos) (Nat.pow_pos (by decide))
      exact (Nat.le_div_iff_mul_le ones).2 (digits_mul_pow_le up
        (Decimal.roundsTo_shortest .even magnitude) (Nat.le_sub_one_of_lt less))
    · -- the greatest double is its seventeen digits times a power of ten, without an overflow
      have greatest : shortest .even (infinityMagnitude - 1) = ⟨17976931348623157, 292⟩ := by
        decide +kernel
      rw [greatest] at up ⊢
      obtain rfl : zeros = 292 := Int.ofNat.inj up.symm
      exact isSome_scaled?_of_finite (by decide) (by decide +kernel)

end Shortest

/-! ## Numbers -/

theorem isSome_size?_of {n : Number} (fits : n.decimal.digits < UInt64.size)
    (written : n.exponent.getD 0 ≤ greatestExponent)
    (scaled : (scaled? (.ofNat n.decimal.digits) n.decimal.exponent).isSome) : n.size?.isSome := by
  by_cases near : (n.exponent.getD 0).natAbs ≤ greatestExponent
  · rwa [size?_of_lt fits near]
  · have below : ¬ 0 < n.exponent.getD 0 := by omega
    rw [size?]
    dsimp only
    rw [if_neg near, if_neg (by simp [below])]
    rfl

section Decimal

variable (negative : Bool) {d : Decimal} (few : d.digits ≤ 10 ^ 17)

include few

theorem digits_decimal_ofDecimal_lt : (ofDecimal negative d).decimal.digits < UInt64.size := by
  have fits : d.digits < UInt64.size := Nat.lt_of_le_of_lt few (by decide)
  by_cases plain : isPlain d = true
  · rcases decimal_ofDecimal negative d with same | ⟨power, up, same⟩
    · rwa [same]
    · -- in full there are no more than sixteen digits before the point
      have length := Decimal.lt_pow_length_toDigits d.digits
      simp only [isPlain, leadingExponent, up, Bool.and_eq_true, decide_eq_true_eq] at plain
      rw [same]
      calc d.digits * Nat.pow 10 (power + 1)
          ≤ 10 ^ (Nat.toDigits 10 d.digits).length * 10 ^ (power + 1) :=
            Nat.mul_le_mul_right _ length.le
        _ = 10 ^ ((Nat.toDigits 10 d.digits).length + (power + 1)) := (pow_add ..).symm
        _ ≤ 10 ^ 18 := Nat.pow_le_pow_right (by decide) (by omega)
        _ < UInt64.size := by decide
  · rwa [decimal_of_not_isPlain negative plain]

theorem exponent_ofDecimal_le (near : d.exponent < 309) :
    (ofDecimal negative d).exponent.getD 0 ≤ greatestExponent := by
  have length : (Nat.toDigits 10 d.digits).length ≤ 18 :=
    (Nat.length_toDigits_le_iff (by decide) (by decide)).2 (Nat.lt_of_le_of_lt few (by decide))
  unfold ofDecimal
  split
  · exact Int.natCast_nonneg _
  · dsimp only [Option.getD_some, leadingExponent, greatestExponent]
    omega

end Decimal

/-- The number of a finite double is read as some double. -/
theorem isSome_toBinary64? {x : Binary64} {n : Number} (written : ofBinary64? x = some n) :
    n.toBinary64?.isSome := by
  unfold ofBinary64? at written
  split at written
  · next finite =>
    obtain rfl := Option.some.inj written
    have finite := Binary64.isFinite_iff.1 finite
    have few := Decimal.digits_shortest_le .even x.magnitude
    have scaled : (scaled? (.ofNat (ofDecimal x.negative (shortest .even x.magnitude)).decimal.digits)
        (ofDecimal x.negative (shortest .even x.magnitude)).decimal.exponent).isSome := by
      rcases decimal_ofDecimal x.negative (shortest .even x.magnitude) with same | ⟨power, -, same⟩
      · rw [same]
        exact isSome_scaled?_shortest finite
      · rw [same]
        exact isSome_scaled?_of_neg _ (show (-1 : Int) < 0 by decide)
    rw [toBinary64?, Option.isSome_map]
    exact isSome_size?_of (digits_decimal_ofDecimal_lt x.negative few)
      (exponent_ofDecimal_le x.negative few (exponent_shortest_lt finite .even)) scaled
  · cases written

end BenchLog.Json.Number
