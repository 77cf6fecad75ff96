import BenchLog.Proofs.Decimal.Value
import Mathlib.Data.Nat.Cast.Order.Field
import Mathlib.Tactic.NormNum

/-!
# No decimal has fewer digits

The shortest decimal of a magnitude has no more significant digits than any other decimal that
rounds to the magnitude (`hasDigits_shortest`). If a multiple of a power of ten rounds to the
magnitude, the search finds one on this grid (`isSome_nearestOnGrid?`), and the scale at which it
starts is the right one (`pow_scale_le`, `lt_pow_scale`); so what it finds has no more digits than
the first grid with a hit allows. And there is a hit with seventeen digits (`isSome_seventeenth`),
so the search never ends without one.
-/

namespace BenchLog.Decimal

open Binary64 (unitsOf unitsPerOne cast_unitsPerOne_pos RoundsTo binade)

/-- The number has at most so many digits, with zeros behind them. -/
def HasDigits (count n : Nat) : Prop := ∃ head zeros, n = head * 10 ^ zeros ∧ head < 10 ^ count

theorem hasDigits_of_le {count n : Nat} (pos : 0 < count) (le : n ≤ 10 ^ count) :
    HasDigits count n := by
  rcases Nat.lt_or_eq_of_le le with less | rfl
  · exact ⟨n, 0, by simp, less⟩
  · exact ⟨1, count, by simp, Nat.one_lt_pow (by omega) (by decide)⟩

theorem HasDigits.mul_pow {count n : Nat} (h : HasDigits count n) (zeros : Nat) :
    HasDigits count (n * 10 ^ zeros) := by
  obtain ⟨head, more, value, less⟩ := h
  exact ⟨head, more + zeros, by rw [value, Nat.mul_assoc, ← pow_add], less⟩

/-! ## The scale -/

theorem lt_pow_length_toDigits (n : Nat) : n < 10 ^ (Nat.toDigits 10 n).length :=
  (Nat.length_toDigits_le_iff (by decide) Nat.length_toDigits_pos).1 (Nat.le_refl _)

theorem pow_length_toDigits_le {n : Nat} (pos : 0 < n) :
    10 ^ ((Nat.toDigits 10 n).length - 1) ≤ n := by
  have some := Nat.length_toDigits_pos (b := 10) (n := n)
  rcases Nat.eq_zero_or_pos ((Nat.toDigits 10 n).length - 1) with one | more
  · rw [one]
    exact pos
  · have := mt (Nat.length_toDigits_le_iff (b := 10) (n := n) (by decide) more).2 (by omega)
    omega

/-- The value of so many units. -/
def ofUnits (units : Nat) : ℚ := units / unitsPerOne

section Scale

variable {units : Nat} (pos : 0 < units)

include pos

/-- The two sides of the scale, for a value of at least one and for one below. -/
theorem scale_cases :
    (∃ n : Nat, scale units = n + 1 ∧ 10 ^ n * unitsPerOne ≤ units ∧
      units < 10 ^ (n + 1) * unitsPerOne) ∨
    ∃ n : Nat, scale units = -n ∧ unitsPerOne ≤ units * 10 ^ (n + 1) ∧
      units * 10 ^ n < unitsPerOne := by
  have ones := Binary64.unitsPerOne_pos
  unfold scale
  split
  · next large =>
    have some := Nat.length_toDigits_pos (b := 10) (n := units / unitsPerOne)
    have low := pow_length_toDigits_le (Nat.div_pos large ones)
    have high := lt_pow_length_toDigits (units / unitsPerOne)
    obtain ⟨n, length⟩ : ∃ n, (Nat.toDigits 10 (units / unitsPerOne)).length = n + 1 :=
      ⟨_, (Nat.sub_add_cancel some).symm⟩
    rw [length] at low high ⊢
    exact Or.inl ⟨n, rfl, (Nat.le_div_iff_mul_le ones).1 low, (Nat.div_lt_iff_lt_mul ones).1 high⟩
  · next small =>
    have some := Nat.length_toDigits_pos (b := 10) (n := (unitsPerOne - 1) / units)
    have low := pow_length_toDigits_le (Nat.div_pos (show units ≤ unitsPerOne - 1 by omega) pos)
    have high := lt_pow_length_toDigits ((unitsPerOne - 1) / units)
    obtain ⟨n, length⟩ : ∃ n, (Nat.toDigits 10 ((unitsPerOne - 1) / units)).length = n + 1 :=
      ⟨_, (Nat.sub_add_cancel some).symm⟩
    rw [length] at low high ⊢
    have above := (Nat.le_div_iff_mul_le pos).1 low
    have below := (Nat.div_lt_iff_lt_mul pos).1 high
    rw [Nat.add_sub_cancel, Nat.mul_comm] at above
    rw [Nat.mul_comm] at below
    exact Or.inr ⟨n, by push_cast; omega, by omega, by omega⟩

theorem pow_scale_le : (10 : ℚ) ^ (scale units - 1) ≤ ofUnits units := by
  rw [ofUnits, le_div_iff₀ cast_unitsPerOne_pos]
  rcases scale_cases pos with ⟨n, scale, low, -⟩ | ⟨n, scale, low, -⟩
  · rw [scale, add_sub_cancel_right, zpow_natCast]
    exact_mod_cast low
  · rw [scale, show (-(n : ℤ) - 1) = -((n + 1 : Nat) : ℤ) by push_cast; ring, zpow_neg,
      zpow_natCast, inv_mul_le_iff₀ (by positivity), mul_comm]
    exact_mod_cast low

theorem lt_pow_scale : ofUnits units < (10 : ℚ) ^ scale units := by
  rw [ofUnits, div_lt_iff₀ cast_unitsPerOne_pos]
  rcases scale_cases pos with ⟨n, scale, -, high⟩ | ⟨n, scale, -, high⟩
  · rw [scale, show ((n : ℤ) + 1) = ((n + 1 : Nat) : ℤ) by push_cast; ring, zpow_natCast]
    exact_mod_cast high
  · rw [scale, zpow_neg, zpow_natCast, lt_inv_mul_iff₀ (by positivity), mul_comm]
    exact_mod_cast high

end Scale

/-! ## Grids -/

/-- The greatest number of steps of `10 ^ exponent` that are no more than so many units. -/
def stepsBelow (units : Nat) (exponent : ℤ) : Nat :=
  (onGrid units exponent).1 / (onGrid units exponent).2

theorem onGrid_spec (units : Nat) (exponent : ℤ) : 0 < (onGrid units exponent).2 ∧
    ((onGrid units exponent).1 : ℚ) / (onGrid units exponent).2 =
      ofUnits units / (10 : ℚ) ^ exponent := by
  have ones := cast_unitsPerOne_pos
  refine ⟨Nat.mul_pos Binary64.unitsPerOne_pos (Nat.pow_pos (by decide)), ?_⟩
  simp only [onGrid, ofUnits, Nat.pow_eq]
  obtain ⟨n, rfl | rfl⟩ := exponent.eq_nat_or_neg
  · simp only [Int.toNat_natCast, show (-(n : ℤ)).toNat = 0 by omega, pow_zero, mul_one,
      zpow_natCast, Nat.cast_mul, Nat.cast_pow, Nat.cast_ofNat]
    rw [div_div]
  · simp only [neg_neg, Int.toNat_natCast, show (-(n : ℤ)).toNat = 0 by omega, pow_zero, mul_one,
      zpow_neg, zpow_natCast, div_inv_eq_mul]
    push_cast
    ring

theorem ten_zpow_pos (exponent : ℤ) : (0 : ℚ) < (10 : ℚ) ^ exponent := zpow_pos (by norm_num) _

theorem stepsBelow_mul_le (units : Nat) (exponent : ℤ) :
    (stepsBelow units exponent : ℚ) * (10 : ℚ) ^ exponent ≤ ofUnits units := by
  rw [← le_div_iff₀ (ten_zpow_pos exponent), ← (onGrid_spec units exponent).2]
  exact Nat.cast_div_le

theorem lt_stepsBelow_mul (units : Nat) (exponent : ℤ) :
    ofUnits units < ((stepsBelow units exponent + 1 : Nat) : ℚ) * (10 : ℚ) ^ exponent := by
  obtain ⟨pos, quotient⟩ := onGrid_spec units exponent
  rw [← div_lt_iff₀ (ten_zpow_pos exponent), ← quotient, div_lt_iff₀ (Nat.cast_pos.2 pos)]
  rw [← Nat.cast_mul, Nat.cast_lt, Nat.mul_comm]
  exact Nat.lt_mul_div_succ _ pos

variable {tie : Tie} {magnitude : Nat}

theorem ofUnits_mul (units : Nat) : ofUnits units * unitsPerOne = units :=
  div_mul_cancel₀ _ cast_unitsPerOne_pos.ne'

/-- The decimals of a magnitude lie without gaps around its value. -/
theorem roundsTo_of_between {d d' : Decimal} (rounds : d.roundsTo magnitude = true)
    (between : d.value ≤ d'.value ∧ d'.value ≤ ofUnits (unitsOf magnitude) ∨
      ofUnits (unitsOf magnitude) ≤ d'.value ∧ d'.value ≤ d.value) :
    d'.roundsTo magnitude = true := by
  have scaled {a b : ℚ} (le : a ≤ b) : a * unitsPerOne ≤ b * unitsPerOne :=
    mul_le_mul_of_nonneg_right le cast_unitsPerOne_pos.le
  have value := Binary64.roundsTo_unitsOf magnitude
  rw [← ofUnits_mul] at value
  rw [roundsTo_iff_value] at rounds ⊢
  rcases between with ⟨le, le'⟩ | ⟨le, le'⟩
  · exact rounds.between value (scaled le) (scaled le')
  · exact value.between rounds (scaled le) (scaled le')

theorem not_roundsTo_of_nearestOnGrid? {exponent : ℤ}
    (none : nearestOnGrid? tie magnitude exponent = none) :
    roundsTo ⟨stepsBelow (unitsOf magnitude) exponent, exponent⟩ magnitude = false ∧
      roundsTo ⟨stepsBelow (unitsOf magnitude) exponent + 1, exponent⟩ magnitude = false := by
  unfold nearestOnGrid? at none
  dsimp only at none
  split at none
  · next below above => exact ⟨below, above⟩
  · cases none
  · cases none
  · repeat' split at none
    all_goals cases none

variable (tie) in
/-- If a point of a grid rounds to the magnitude, so does one of those around its value. -/
theorem isSome_nearestOnGrid? {digits : Nat} {exponent : ℤ}
    (rounds : roundsTo ⟨digits, exponent⟩ magnitude = true) :
    (nearestOnGrid? tie magnitude exponent).isSome := by
  rw [Option.isSome_iff_ne_none]
  intro none
  obtain ⟨lower, upper⟩ := not_roundsTo_of_nearestOnGrid? none
  have order {m n : Nat} (le : m ≤ n) : value ⟨m, exponent⟩ ≤ value ⟨n, exponent⟩ :=
    mul_le_mul_of_nonneg_right (Nat.cast_le.2 le) (ten_zpow_pos exponent).le
  rcases Nat.lt_or_ge (stepsBelow (unitsOf magnitude) exponent) digits with more | less
  · have above : ofUnits (unitsOf magnitude) ≤ value ⟨_, exponent⟩ :=
      (lt_stepsBelow_mul (unitsOf magnitude) exponent).le
    rw [roundsTo_of_between rounds (Or.inr ⟨above, order more⟩)] at upper
    cases upper
  · have below : value ⟨_, exponent⟩ ≤ ofUnits (unitsOf magnitude) :=
      stepsBelow_mul_le (unitsOf magnitude) exponent
    rw [roundsTo_of_between rounds (Or.inl ⟨order less, below⟩)] at lower
    cases lower

theorem digits_of_nearestOnGrid? {exponent : ℤ} {d : Decimal}
    (found : nearestOnGrid? tie magnitude exponent = some d) :
    d.digits ≤ stepsBelow (unitsOf magnitude) exponent + 1 := by
  unfold nearestOnGrid? at found
  dsimp only at found
  unfold stepsBelow
  repeat' split at found
  all_goals cases found
  all_goals
    dsimp only
    omega

/-! ## Seventeen digits -/

/-- The decimals of a magnitude spread over more than its value, divided by `10 ^ 16`. -/
theorem unitsOf_lt_spread (pos : 0 < magnitude) :
    2 * unitsOf magnitude + lowerEnd magnitude * 10 ^ 16 < upperEnd magnitude * 10 ^ 16 := by
  obtain ⟨shift, significand, rfl, small, normal⟩ := Binary64.exists_grid magnitude
  have binade_eq : binade = 4503599627370496 := by decide
  have power := Binary64.two_pow_pos shift
  rw [Binary64.upperEnd_grid small normal, Binary64.unitsOf_grid (by omega) normal]
  have positive : 0 < significand := by
    rcases normal with rfl | normal
    · simpa using pos
    · omega
  by_cases inside : shift = 0 ∨ binade < significand
  · have lower := Binary64.lowerEnd_grid positive (by omega) inside
    nlinarith
  · -- below the least significand of an exponent the steps are half as wide
    obtain ⟨less, rfl⟩ : ∃ less, shift = less + 1 := ⟨shift - 1, by omega⟩
    obtain rfl : significand = binade := by omega
    have before : (less + 1) * binade + binade - 1 = less * binade + (2 * binade - 1) := by
      have : (less + 1) * binade = less * binade + binade := by ring
      omega
    have lower : lowerEnd ((less + 1) * binade + binade) =
        (2 * binade - 1) * Nat.pow 2 less + binade * Nat.pow 2 (less + 1) := by
      rw [lowerEnd, before, Binary64.unitsOf_grid (by omega) (Or.inr (by omega)),
        Binary64.unitsOf_grid (by omega) (Or.inr (by omega))]
    rw [lower, Binary64.two_pow_succ]
    rw [binade_eq]
    have := Binary64.two_pow_pos less
    omega

/-- On a grid whose steps are no more than the value, divided by `10 ^ 16`, there is a decimal that
rounds to the magnitude. -/
theorem exists_roundsTo_of_fine (pos : 0 < magnitude) {exponent : ℤ}
    (fine : (10 : ℚ) ^ exponent * 10 ^ 16 ≤ ofUnits (unitsOf magnitude)) :
    ∃ digits, roundsTo ⟨digits, exponent⟩ magnitude = true := by
  have ones := cast_unitsPerOne_pos
  have spread : 2 * (unitsOf magnitude : ℚ) + lowerEnd magnitude * 10 ^ 16 <
      upperEnd magnitude * 10 ^ 16 := by exact_mod_cast unitsOf_lt_spread pos
  have low : (lowerEnd magnitude : ℚ) < 2 * unitsOf magnitude := by
    exact_mod_cast Binary64.lowerEnd_lt pos
  have high : 2 * (unitsOf magnitude : ℚ) < upperEnd magnitude := by
    exact_mod_cast Binary64.lt_upperEnd magnitude
  have below := mul_le_mul_of_nonneg_right (stepsBelow_mul_le (unitsOf magnitude) exponent) ones.le
  have above := mul_lt_mul_of_pos_right (lt_stepsBelow_mul (unitsOf magnitude) exponent) ones
  have narrow := mul_le_mul_of_nonneg_right fine ones.le
  rw [ofUnits_mul] at below above narrow
  simp only [roundsTo_iff_value, value]
  by_cases inside : (lowerEnd magnitude : ℚ) <
      2 * (stepsBelow (unitsOf magnitude) exponent * (10 : ℚ) ^ exponent * unitsPerOne)
  · exact ⟨_, Binary64.roundsTo_of_lt inside (by linarith)⟩
  · -- the step below is out of the spread, so the step above is still within it
    refine ⟨stepsBelow (unitsOf magnitude) exponent + 1,
      Binary64.roundsTo_of_lt (by linarith) ?_⟩
    push_cast
    linarith

/-! ## The shortest decimal -/

/-- A search through numbers in turn ends no later than at a given hit. -/
theorem exists_findSome?_range {α : Type} {f : Nat → Option α} {n limit : Nat} (inside : n < limit)
    (hit : (f n).isSome) :
    ∃ first ≤ n, ∃ found, f first = some found ∧ (List.range limit).findSome? f = some found := by
  obtain ⟨found, run⟩ := Option.isSome_iff_exists.1
    (List.findSome?_isSome_iff.2 ⟨n, List.mem_range.2 inside, hit⟩)
  obtain ⟨before, first, after, split, value, none⟩ := List.findSome?_eq_some_iff.1 run
  refine ⟨first, ?_, found, value, run⟩
  have member := List.mem_range.2 inside
  have increasing : (List.range limit).Pairwise (· < ·) := List.pairwise_lt_range
  rw [split] at member increasing
  rcases List.mem_append.1 member with early | late
  · rw [none n early] at hit
    cases hit
  · rcases List.mem_cons.1 late with rfl | later
    · exact Nat.le_refl n
    · exact Nat.le_of_lt ((List.pairwise_cons.1 (List.pairwise_append.1 increasing).2.1).1 n later)

section Search

variable (pos : 0 < magnitude)

include pos

theorem unitsOf_pos : 0 < unitsOf magnitude := by simpa using Binary64.strictMono_unitsOf pos

theorem isSome_seventeenth :
    (nearestOnGrid? tie magnitude (scale (unitsOf magnitude) - (17 : Nat))).isSome := by
  have low := pow_scale_le (unitsOf_pos pos)
  generalize scale (unitsOf magnitude) = start at low ⊢
  have steps : (10 : ℚ) ^ (start - (17 : Nat)) * 10 ^ 16 = (10 : ℚ) ^ (start - 1) := by
    rw [← zpow_natCast, ← zpow_add₀ (by norm_num)]
    congr 1
    push_cast
    ring
  obtain ⟨digits, rounds⟩ := exists_roundsTo_of_fine pos (steps.le.trans low)
  exact isSome_nearestOnGrid? tie rounds

variable (tie) in
/-- A decimal with few digits is on a grid that is searched early, or a power of ten is that lies
between the decimal and the value. -/
theorem exists_isSome_nearestOnGrid? {d : Decimal} (rounds : d.roundsTo magnitude = true)
    {count : Nat} (some : 0 < count) (few : d.digits < 10 ^ count) :
    ∃ n ≤ count, (nearestOnGrid? tie magnitude (scale (unitsOf magnitude) - (n : Nat))).isSome := by
  have low := pow_scale_le (unitsOf_pos pos)
  generalize scale (unitsOf magnitude) = start at low ⊢
  obtain ⟨digits, exponent⟩ := d
  dsimp only at few
  rcases le_or_gt start exponent with coarse | fine
  · obtain ⟨zeros, rfl⟩ : ∃ zeros : Nat, exponent = start + zeros :=
      ⟨(exponent - start).toNat, by omega⟩
    have same : value ⟨digits * 10 ^ zeros, start⟩ = value ⟨digits, start + zeros⟩ := by
      simp only [value]
      push_cast
      rw [zpow_add₀ (by norm_num), zpow_natCast]
      ring
    refine ⟨0, Nat.zero_le _, ?_⟩
    rw [roundsTo_iff_value, ← same, ← roundsTo_iff_value] at rounds
    simpa using isSome_nearestOnGrid? tie rounds
  obtain ⟨n, rfl⟩ : ∃ n : Nat, exponent = start - n := ⟨(start - exponent).toNat, by omega⟩
  rcases Nat.lt_or_ge count n with finer | early
  · have short : value ⟨digits, start - n⟩ ≤ value ⟨1, start - (1 : Nat)⟩ := by
      simp only [value, Nat.cast_one, one_mul]
      calc (digits : ℚ) * (10 : ℚ) ^ (start - n)
          ≤ (10 : ℚ) ^ count * (10 : ℚ) ^ (start - n) :=
            mul_le_mul_of_nonneg_right (by exact_mod_cast few.le) (ten_zpow_pos _).le
        _ = (10 : ℚ) ^ (count + (start - n)) := by
            rw [← zpow_natCast, ← zpow_add₀ (by norm_num)]
        _ ≤ (10 : ℚ) ^ (start - 1) := zpow_le_zpow_right₀ (by norm_num) (by omega)
    have between : value ⟨1, start - (1 : Nat)⟩ ≤ ofUnits (unitsOf magnitude) := by
      simp only [value, Nat.cast_one, one_mul]
      exact low
    exact ⟨1, some, isSome_nearestOnGrid? tie
      (roundsTo_of_between rounds (Or.inl ⟨short, between⟩))⟩
  · exact ⟨n, early, isSome_nearestOnGrid? tie rounds⟩

/-- What is found on a grid that is searched early has few digits. -/
theorem digits_le_of_nearestOnGrid? {n : Nat} {d : Decimal}
    (found : nearestOnGrid? tie magnitude (scale (unitsOf magnitude) - (n : Nat)) = some d) :
    d.digits ≤ 10 ^ n := by
  have digits := digits_of_nearestOnGrid? found
  have high := lt_pow_scale (unitsOf_pos pos)
  have below := stepsBelow_mul_le (unitsOf magnitude) (scale (unitsOf magnitude) - (n : Nat))
  generalize scale (unitsOf magnitude) = start at *
  generalize stepsBelow (unitsOf magnitude) (start - (n : Nat)) = steps at *
  have few : steps < 10 ^ n := by
    have power : (10 : ℚ) ^ start = (10 : ℚ) ^ n * (10 : ℚ) ^ (start - (n : Nat)) := by
      rw [← zpow_natCast, ← zpow_add₀ (by norm_num)]
      congr 1
      ring
    rw [power] at high
    have := lt_of_mul_lt_mul_right (below.trans_lt high) (ten_zpow_pos _).le
    exact_mod_cast this
  omega

/-- The shortest decimal is found no later than on a given grid with a hit. -/
theorem exists_nearestOnGrid?_eq_shortest {n : Nat} (searched : n < 18)
    (hit : (nearestOnGrid? tie magnitude (scale (unitsOf magnitude) - (n : Nat))).isSome) :
    ∃ first ≤ n, nearestOnGrid? tie magnitude (scale (unitsOf magnitude) - (first : Nat)) =
      some (shortest tie magnitude) := by
  unfold shortest
  rw [if_neg (Nat.ne_of_gt pos)]
  dsimp only
  let probe (n : Nat) := nearestOnGrid? tie magnitude (scale (unitsOf magnitude) - n)
  have hit' : (probe n).isSome := hit
  obtain ⟨first, le, found, value, run⟩ := exists_findSome?_range searched hit'
  rw [run, Option.getD_some]
  exact ⟨first, le, value⟩

/-- The shortest decimal has no more digits than any other that rounds to the magnitude. -/
theorem hasDigits_shortest {d : Decimal} (rounds : d.roundsTo magnitude = true) {count : Nat}
    (few : HasDigits count d.digits) : HasDigits count (shortest tie magnitude).digits := by
  obtain ⟨digits, exponent⟩ := d
  obtain ⟨head, zeros, rfl, less⟩ := few
  have same : value ⟨head, exponent + zeros⟩ = value ⟨head * 10 ^ zeros, exponent⟩ := by
    simp only [value]
    push_cast
    rw [zpow_add₀ (by norm_num), zpow_natCast]
    ring
  rw [roundsTo_iff_value, ← same, ← roundsTo_iff_value] at rounds
  have some : 0 < count := by
    rcases Nat.eq_zero_or_pos count with rfl | some
    · exact absurd (by simpa using less) (digits_ne_zero_of_roundsTo pos rounds)
    · exact some
  -- some grid has a hit, with an index that `count` and the search allow
  obtain ⟨n, early, searched, hit⟩ : ∃ n ≤ count, n < 18 ∧
      (nearestOnGrid? tie magnitude (scale (unitsOf magnitude) - (n : Nat))).isSome := by
    obtain ⟨n, early, hit⟩ := exists_isSome_nearestOnGrid? tie pos rounds some less
    rcases Nat.lt_or_ge n 18 with searched | late
    · exact ⟨n, early, searched, hit⟩
    · exact ⟨17, by omega, by decide, isSome_seventeenth pos⟩
  obtain ⟨first, le, found⟩ := exists_nearestOnGrid?_eq_shortest pos searched hit
  exact hasDigits_of_le some ((digits_le_of_nearestOnGrid? pos found).trans
    (Nat.pow_le_pow_right (by decide) (le.trans early)))

end Search

theorem hasDigits_shortest_of_roundsTo (tie : Tie) {d : Decimal}
    (rounds : d.roundsTo magnitude = true) {count : Nat} (few : HasDigits count d.digits) :
    HasDigits count (shortest tie magnitude).digits := by
  rcases Nat.eq_zero_or_pos magnitude with rfl | pos
  · exact ⟨0, 0, rfl, Nat.pow_pos (by decide)⟩
  · exact hasDigits_shortest pos rounds few

theorem digits_shortest_le (tie : Tie) (magnitude : Nat) :
    (shortest tie magnitude).digits ≤ 10 ^ 17 := by
  rcases Nat.eq_zero_or_pos magnitude with rfl | pos
  · exact Nat.zero_le _
  · obtain ⟨first, le, found⟩ :=
      exists_nearestOnGrid?_eq_shortest pos (by decide) (@isSome_seventeenth tie magnitude pos)
    exact (digits_le_of_nearestOnGrid? pos found).trans (Nat.pow_le_pow_right (by decide) le)

end BenchLog.Decimal
