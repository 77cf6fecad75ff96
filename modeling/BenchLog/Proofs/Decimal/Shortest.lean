import BenchLog.Proofs.Binary64.Nearest

/-!
# The shortest decimal rounds back

`roundsTo` is rounding to the nearest double (`roundsTo_iff`), and `shortest` gives a decimal that
does round to the magnitude (`roundsTo_shortest`), not only where its search ends early: the exact
value, which stands at the end of the search, rounds to the magnitude as well.
-/

namespace BenchLog.Decimal

open Binary64 (unitsOf unitsPerOne IsNearest)

theorem roundsTo_iff (d : Decimal) (magnitude : Nat) :
    d.roundsTo magnitude = true ↔
      IsNearest (d.numerator * unitsPerOne) d.denominator magnitude := by
  have twice : 2 * unitsPerOne * d.numerator = 2 * (d.numerator * unitsPerOne) := by ring
  simp only [roundsTo, twice]
  split
  · next even =>
    simp only [Bool.and_eq_true, decide_eq_true_eq]
    exact ⟨fun ⟨low, high⟩ => ⟨low, high, fun odd => absurd odd (by omega)⟩,
      fun nearest => ⟨nearest.low, nearest.high⟩⟩
  · next odd =>
    simp only [Bool.and_eq_true, decide_eq_true_eq]
    refine ⟨fun ⟨low, high⟩ => ⟨Nat.le_of_lt low, Nat.le_of_lt high,
      fun _ => ⟨Nat.ne_of_lt low, Nat.ne_of_lt high⟩⟩, fun ⟨low, high, ends⟩ => ?_⟩
    obtain ⟨not_low, not_high⟩ := ends (by omega)
    exact ⟨Nat.lt_of_le_of_ne low not_low, Nat.lt_of_le_of_ne high not_high⟩

theorem mul_pow_five_mul_pow_two (k n : Nat) :
    k * Nat.pow 5 n * Nat.pow 2 n = k * Nat.pow 10 n := by
  rw [Nat.mul_assoc]
  exact congrArg (k * ·) (Nat.mul_pow 5 2 n).symm

/-- The exact value rounds to its magnitude. -/
theorem roundsTo_exact (magnitude : Nat) :
    (exact (unitsOf magnitude)).roundsTo magnitude = true := by
  have value : (exact (unitsOf magnitude)).numerator * unitsPerOne =
      unitsOf magnitude * Nat.pow 10 1074 := by
    have no_tens : Nat.pow 10 (-1074 : Int).toNat = 1 := rfl
    simp only [exact, numerator, no_tens, Nat.mul_one]
    exact mul_pow_five_mul_pow_two (unitsOf magnitude) 1074
  rw [roundsTo_iff, value]
  exact Binary64.isNearest_unitsOf (Nat.pow_pos (by decide)) magnitude

theorem roundsTo_of_nearestOnGrid? {tie : Tie} {magnitude : Nat} {exponent : Int} {d : Decimal}
    (found : nearestOnGrid? tie magnitude exponent = some d) : d.roundsTo magnitude = true := by
  unfold nearestOnGrid? at found
  dsimp only at found
  split at found
  · cases found
  · next below _ => exact Option.some.inj found ▸ below
  · next _ above => exact Option.some.inj found ▸ above
  · next below above =>
    split at found
    · exact Option.some.inj found ▸ below
    split at found
    · exact Option.some.inj found ▸ above
    cases tie with
    | up => exact Option.some.inj found ▸ above
    | even =>
      dsimp only at found
      split at found
      · exact Option.some.inj found ▸ below
      · exact Option.some.inj found ▸ above

/-- The shortest decimal rounds to the magnitude. -/
theorem roundsTo_shortest (tie : Tie) (magnitude : Nat) :
    (shortest tie magnitude).roundsTo magnitude = true := by
  by_cases zero : magnitude = 0
  · subst zero
    rw [roundsTo_iff, shortest, if_pos rfl, numerator, Nat.zero_mul, Nat.zero_mul]
    exact Binary64.isNearest_unitsOf Nat.one_pos 0
  unfold shortest
  rw [if_neg zero]
  dsimp only
  cases found : (List.range 18).findSome? fun (n : Nat) =>
      nearestOnGrid? tie magnitude (scale (unitsOf magnitude) - n) with
  | none =>
    rw [Option.getD_none]
    exact roundsTo_exact magnitude
  | some d =>
    rw [Option.getD_some]
    obtain ⟨n, -, hit⟩ := List.exists_of_findSome?_eq_some found
    exact roundsTo_of_nearestOnGrid? hit

/-- What rounds to a positive magnitude is positive. -/
theorem digits_ne_zero_of_roundsTo {d : Decimal} {magnitude : Nat} (pos : 0 < magnitude)
    (rounds : d.roundsTo magnitude = true) : d.digits ≠ 0 := by
  intro zero
  have low := ((roundsTo_iff d magnitude).1 rounds).low
  have denominator_pos : 0 < d.denominator := Nat.pow_pos (by decide)
  have lower : 0 < lowerEnd magnitude := by
    have := Binary64.strictMono_unitsOf pos
    unfold lowerEnd
    omega
  rw [numerator, zero, Nat.zero_mul, Nat.zero_mul, Nat.mul_zero] at low
  have := Nat.mul_pos lower denominator_pos
  omega

/-- Only zero has no digits, and it has no exponent either. -/
theorem exponent_shortest (tie : Tie) {magnitude : Nat}
    (zero : (shortest tie magnitude).digits = 0) : (shortest tie magnitude).exponent = 0 := by
  rcases Nat.eq_zero_or_pos magnitude with rfl | pos
  · rfl
  · exact absurd zero (digits_ne_zero_of_roundsTo pos (roundsTo_shortest tie magnitude))

end BenchLog.Decimal
