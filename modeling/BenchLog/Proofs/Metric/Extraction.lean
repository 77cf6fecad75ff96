import BenchLog.Log.Blocks
import BenchLog.Proofs.Decimal.Grammar
import BenchLog.Proofs.Text.Blank

/-!
# What a line is read as

A line is cleaned first (`MetricSpec.Cleans`): its last characters are dropped, the separator rule is
applied, and white space at both ends goes. A metric of whole numbers then takes the spellings of 64-bit
integers, rounded to the nearest double (`MetricSpec.sample_integer`), and any other takes the spellings
of decimals, rounded likewise, and three words (`MetricSpec.sample_float`). All other texts are reported
as they are.
-/

namespace BenchLog

open Binary64 (IsRounding Rounds)

/-! ## Cleaning -/

/-- The text of a line that has to be a number: so many characters are dropped at the end of the line, or
all if it has no more, then separators are treated, and then the rest is trimmed. -/
def MetricSpec.Cleans (spec : MetricSpec) (line text : List Char) : Prop :=
  ∃ kept dropped, line = kept ++ dropped ∧ dropped.length = min spec.strip line.length ∧
    IsTrimmed (spec.separator.apply kept) text

theorem stripTrailing_eq {count : Nat} {kept dropped : List Char}
    (length : dropped.length = min count (kept ++ dropped).length) :
    stripTrailing count (kept ++ dropped) = kept := by
  rw [List.length_append] at length
  rw [stripTrailing, List.length_append,
    show kept.length + dropped.length - count = kept.length by omega, List.take_left]

theorem MetricSpec.cleans_iff {spec : MetricSpec} {line text : List Char} :
    spec.Cleans line text ↔ spec.clean line = text := by
  rw [clean, ← isTrimmed_iff]
  constructor
  · rintro ⟨kept, dropped, rfl, length, trimmed⟩
    rwa [stripTrailing_eq length]
  · intro trimmed
    refine ⟨_, line.drop (line.length - spec.strip), (List.take_append_drop _ _).symm, ?_, trimmed⟩
    rw [List.length_drop]
    omega

/-! ## Whole numbers -/

namespace Binary64

/-- A whole number that is in range is rounded to the nearest double. -/
theorem isRounding_ofInt {n : Int} (fits : |(n : ℚ)| ≤ 2 ^ 63) : IsRounding n (ofInt n) := by
  have rounds : Rounds (decide (n < 0)) ((signed (decide (n < 0)) n.natAbs : ℚ) / (1 : Nat)) (ofInt n) :=
    rounds_ofRatio _ Nat.one_pos
  rw [signed_decide, Nat.cast_one, div_one] at rounds
  apply rounds.nearest
  have low : (2 : ℚ) ^ 63 < 2 ^ 1023 := pow_lt_pow_right₀ (by norm_num) (by norm_num)
  have less : (2 : ℚ) ^ 970 ≤ 2 ^ 1023 := pow_le_pow_right₀ (by norm_num) (by norm_num)
  rw [show (2 : ℚ) ^ 1024 = 2 ^ 1023 * 2 from pow_succ 2 1023]
  generalize (2 : ℚ) ^ 1023 = middle at *
  generalize (2 : ℚ) ^ 970 = half at *
  linarith only [fits, low, less]

end Binary64

namespace MetricSpec

variable {spec : MetricSpec}

/-- A metric of whole numbers takes an optional sign and at least one digit, leading zeros or not, if the
number fits 64 signed bits. -/
theorem sample_integer (kind : spec.kind = .integer) (block : Nat) (line : List Char) :
    spec.Cleans line (spec.clean line) ∧
    (∀ n, SpellsInteger n (spec.clean line) → -2 ^ 63 ≤ n → n ≤ 2 ^ 63 - 1 →
      ∃ x, spec.sample block line = .ok x ∧ IsRounding n x ∧ x.negative = decide (n < 0)) ∧
    ((∀ n, SpellsInteger n (spec.clean line) → ¬(-2 ^ 63 ≤ n ∧ n ≤ 2 ^ 63 - 1)) →
      spec.sample block line = .error (.notNumber block spec.name .integer (spec.clean line))) := by
  have read : spec.extract? line = (readInteger? (spec.clean line)).map Binary64.ofInt := by
    rw [extract?, kind]
    rfl
  refine ⟨cleans_iff.2 rfl, fun n spelled low high => ?_, fun noNumber => ?_⟩
  · have number := readInteger?_eq_some_iff.2 ⟨spelled, fitsSigned64_iff.2 (by omega)⟩
    refine ⟨Binary64.ofInt n, ?_, Binary64.isRounding_ofInt ?_, rfl⟩
    · rw [sample, read, number]
      rfl
    · rw [abs_le]
      constructor
      · exact_mod_cast low
      · exact_mod_cast (show n ≤ 2 ^ 63 by omega)
  · have number : readInteger? (spec.clean line) = none := by
      refine Option.eq_none_iff_forall_ne_some.2 fun n number => ?_
      obtain ⟨spelled, fits⟩ := readInteger?_eq_some_iff.1 number
      have range := fitsSigned64_iff.1 fits
      exact noNumber n spelled (by omega)
    rw [sample, read, number, kind]
    rfl

/-- Whole numbers with points between their digits, and two characters at the end of a line. -/
def ticks : MetricSpec where
  name := "ticks"
  kind := .integer
  strip := 2
  separator := .removeDots

/-- The least number of 64 signed bits is a sample. -/
theorem sample_integer_least : ticks.kind = .integer ∧
    ∃ x, ticks.sample 4 "-9.223.372.036.854.775.808\r\n".toList = .ok x ∧ IsRounding (-2 ^ 63) x := by
  have text : ticks.clean "-9.223.372.036.854.775.808\r\n".toList =
      ['-'] ++ "9223372036854775808".toList := by decide +kernel
  have spelled : SpellsInteger (-2 ^ 63) (['-'] ++ "9223372036854775808".toList) := by
    rw [show (-2 ^ 63 : Int) = Binary64.signed true (digitsValue "9223372036854775808".toList) by
      decide +kernel]
    exact .digits .minus (by decide) (List.all_eq_true.1 (by decide))
  obtain ⟨-, number, -⟩ := sample_integer (show ticks.kind = .integer from rfl) 4
    "-9.223.372.036.854.775.808\r\n".toList
  rw [text] at number
  obtain ⟨x, sample, rounding, -⟩ := number _ spelled (by omega) (by omega)
  refine ⟨rfl, x, sample, ?_⟩
  push_cast at rounding
  exact rounding

/-! ## Decimals -/

/-- Any other metric takes decimals, rounded to the nearest double, and three words. -/
theorem sample_float (kind : spec.kind = .float) (block : Nat) (line : List Char) :
    (∀ negative q, SpellsDecimal negative q (spec.clean line) →
      ∃ x, spec.sample block line = .ok x ∧ Rounds negative q x) ∧
    (∀ negative, SpellsWord negative "inf" (spec.clean line) ∨
        SpellsWord negative "infinity" (spec.clean line) →
      spec.sample block line = .ok { Binary64.infinity with negative }) ∧
    (∀ negative, SpellsWord negative "nan" (spec.clean line) →
      ∃ x, spec.sample block line = .ok x ∧ x.isNaN = true) ∧
    ((∀ negative, (∀ q, ¬SpellsDecimal negative q (spec.clean line)) ∧
        ¬SpellsWord negative "inf" (spec.clean line) ∧
        ¬SpellsWord negative "infinity" (spec.clean line) ∧
        ¬SpellsWord negative "nan" (spec.clean line)) →
      spec.sample block line = .error (.notNumber block spec.name .float (spec.clean line))) := by
  have read : spec.extract? line = Binary64.read? (spec.clean line) := by
    rw [extract?, kind]
    rfl
  refine ⟨fun negative q spelled => ?_, fun negative spelled => ?_, fun negative spelled => ?_,
    fun noNumber => ?_⟩
  · obtain ⟨x, number, rounds⟩ := Binary64.read?_of_spellsDecimal spelled
    exact ⟨x, by rw [sample, read, number], rounds⟩
  · rcases spelled with spelled | spelled
    all_goals
      rw [sample, read, Binary64.read?_of_spellsWord spelled (by decide)]
      rfl
  · refine ⟨{ Binary64.nan with negative }, ?_, rfl⟩
    rw [sample, read, Binary64.read?_of_spellsWord spelled (by decide)]
    rfl
  · have number : Binary64.read? (spec.clean line) = none := by
      refine Option.eq_none_iff_forall_ne_some.2 fun x number => ?_
      rcases Binary64.exists_spells_of_read? number with
        ⟨negative, q, decimal⟩ | ⟨negative, short | long | nan⟩
      · exact (noNumber negative).1 q decimal
      · exact (noNumber negative).2.1 short
      · exact (noNumber negative).2.2.1 long
      · exact (noNumber negative).2.2.2 nan
    rw [sample, read, number, kind]

/-- Fractions with a comma, on lines that end in a line feed. -/
def seconds : MetricSpec where
  name := "seconds"
  strip := 1
  separator := .commaToDot

/-- A fraction with a comma and an exponent is a sample. -/
theorem sample_float_quarter : seconds.kind = .float ∧
    ∃ x, seconds.sample 0 " +2,5e-01 \n".toList = .ok x ∧ Rounds false (1 / 4) x := by
  have text : seconds.clean " +2,5e-01 \n".toList = ['+'] ++ (['2'] ++ (['.', '5'] ++
      ('e' :: (['-'] ++ ['0', '1'])))) := by decide +kernel
  have spelled : SpellsDecimal false (1 / 4) (['+'] ++ (['2'] ++ (['.', '5'] ++
      ('e' :: (['-'] ++ ['0', '1']))))) := by
    have exponent : SpellsInteger (-1) (['-'] ++ ['0', '1']) := by
      rw [show (-1 : Int) = Binary64.signed true (digitsValue ['0', '1']) by decide]
      exact .digits .minus (by decide) (List.all_eq_true.1 (by decide))
    have parts : SpellsParts ['2'] ['5'] (-1) (['2'] ++ (['.', '5'] ++
        ('e' :: (['-'] ++ ['0', '1'])))) :=
      .parts (List.all_eq_true.1 (by decide)) (.point (List.all_eq_true.1 (by decide))) (by decide)
        (.mark (Or.inl rfl) exponent)
    convert SpellsDecimal.parts .plus parts using 1
    rw [show digitsValue ['2'] = 2 by decide, show digitsValue ['5'] = 5 by decide]
    norm_num
  obtain ⟨number, -⟩ := sample_float (show seconds.kind = .float from rfl) 0 " +2,5e-01 \n".toList
  rw [text] at number
  exact ⟨rfl, number _ _ spelled⟩

end MetricSpec

end BenchLog
