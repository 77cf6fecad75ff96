import BenchLog.Proofs.Decimal.Fewest
import BenchLog.Proofs.Decimal.RoundTrip
import Mathlib.Data.List.DropRight

/-!
# Significant digits of a text

The significant digits of a number in a text are those that stand before its exponent, without the
zeros that only pad them. There are as many as the decimal that the text spells has
(`length_unpadded_le_iff`), so no text of a finite double has fewer of them than the one that is
written for it (`length_significantDigits_readable_le`).
-/

namespace BenchLog

open Decimal (HasDigits ofParts pointParts shortest)

/-- Digits without the zeros before the first and behind the last other one. -/
def unpadded (digits : List Char) : List Char := (digits.rdropWhile (· == '0')).dropWhile (· == '0')

/-- Does an exponent begin here? -/
def isExponentMark (c : Char) : Bool := c == 'e' || c == 'E'

/-- The digits before the exponent, if there is one, and without those that only pad the others. -/
def significantDigits (text : List Char) : List Char :=
  unpadded ((text.takeWhile fun c => !isExponentMark c).filter Char.isDigit)

/-! ## Padding -/

theorem exists_unpadded (digits : List Char) :
    ∃ before after, digits = List.replicate before '0' ++ (unpadded digits ++
      List.replicate after '0') ∧
      (unpadded digits).head? ≠ some '0' ∧ (unpadded digits).getLast? ≠ some '0' := by
  have zeros (l : List Char) (all : ∀ c ∈ l, (c == '0') = true) :
      l = List.replicate l.length '0' :=
    List.eq_replicate_of_mem fun c mem => eq_of_beq (all c mem)
  have front : (digits.rdropWhile (· == '0')).takeWhile (· == '0') ++ unpadded digits =
      digits.rdropWhile (· == '0') := List.takeWhile_append_dropWhile
  have back : digits.rdropWhile (· == '0') ++ digits.rtakeWhile (· == '0') = digits :=
    List.rdropWhile_append_rtakeWhile
  have leading := zeros ((digits.rdropWhile (· == '0')).takeWhile (· == '0')) fun c mem => by
    simpa using List.mem_takeWhile_imp mem
  have trailing := zeros (digits.rtakeWhile (· == '0')) fun c mem => by
    simpa using List.mem_rtakeWhile_imp mem
  have whole := back.symm
  rw [← front, leading, trailing, List.append_assoc] at whole
  refine ⟨_, _, whole, fun first => ?_, fun last => ?_⟩
  · have no_zero := List.head?_dropWhile_not (· == '0') (digits.rdropWhile (· == '0'))
    rw [← unpadded, first] at no_zero
    cases no_zero
  · have last' : (digits.rdropWhile (· == '0')).getLast? = some '0' := by
      rw [← front, List.getLast?_append, last, Option.some_or]
    have nonempty : digits.rdropWhile (· == '0') ≠ [] := by
      intro nothing
      rw [nothing] at last'
      cases last'
    have no_zero := List.rdropWhile_last_not _ _ nonempty
    rw [(List.getLast_eq_iff_getLast?_eq_some nonempty).2 last'] at no_zero
    exact no_zero rfl

theorem digitsValue_concat (digits : List Char) (c : Char) :
    digitsValue (digits ++ [c]) = 10 * digitsValue digits + (c.toNat - 48) := by
  rw [digitsValue, Nat.ofDigitChars_append, Nat.ofDigitChars_cons, Nat.ofDigitChars_nil]
  rfl

theorem digitsValue_lt {digits : List Char} (all : ∀ c ∈ digits, c.isDigit = true) :
    digitsValue digits < 10 ^ digits.length := by
  induction digits using List.reverseRecOn with
  | nil => decide
  | append_singleton digits c ih =>
    have least := ih fun d mem => all d (List.mem_append_left _ mem)
    have digit := toNat_of_isDigit (all c (by simp))
    rw [digitsValue_concat, List.length_append, List.length_singleton, pow_succ]
    omega

theorem le_digitsValue {digits : List Char} (all : ∀ c ∈ digits, c.isDigit = true)
    (nonempty : digits ≠ []) (first : digits.head? ≠ some '0') :
    10 ^ (digits.length - 1) ≤ digitsValue digits := by
  obtain ⟨c, digits, rfl⟩ := List.exists_cons_of_ne_nil nonempty
  have digit := toNat_of_isDigit (all c List.mem_cons_self)
  have no_zero : c.toNat ≠ 48 := fun zero => first (congrArg some (Char.toNat_inj.1 zero))
  rw [digitsValue, Nat.ofDigitChars_cons, Nat.ofDigitChars_eq_ofDigitChars_zero,
    show '0'.toNat = 48 from rfl]
  exact Nat.le_add_right_of_le (Nat.le_mul_of_pos_right _ (by omega))

theorem not_dvd_digitsValue {digits : List Char} (all : ∀ c ∈ digits, c.isDigit = true)
    (nonempty : digits ≠ []) (last : digits.getLast? ≠ some '0') : ¬ 10 ∣ digitsValue digits := by
  obtain rfl | ⟨digits, c, rfl⟩ := digits.eq_nil_or_concat
  · exact absurd rfl nonempty
  · rw [List.concat_eq_append] at all last ⊢
    have digit := toNat_of_isDigit (all c (by simp))
    rw [List.getLast?_concat] at last
    have no_zero : c.toNat ≠ 48 := fun zero => last (congrArg some (Char.toNat_inj.1 zero))
    rw [digitsValue_concat]
    omega

/-- Digits have no fewer significant ones than their value needs. -/
theorem length_unpadded_le_iff {digits : List Char} (all : ∀ c ∈ digits, c.isDigit = true)
    {count : Nat} : (unpadded digits).length ≤ count ↔ HasDigits count (digitsValue digits) := by
  obtain ⟨before, after, split, first, last⟩ := exists_unpadded digits
  have all' : ∀ c ∈ unpadded digits, c.isDigit = true := fun c mem =>
    all c (split ▸ List.mem_append_right _ (List.mem_append_left _ mem))
  have value : digitsValue digits = digitsValue (unpadded digits) * 10 ^ after := by
    conv_lhs => rw [split, digitsValue_zeros_append, digitsValue_append_zeros]
    rfl
  constructor
  · intro few
    exact ⟨_, after, value,
      (digitsValue_lt all').trans_le (Nat.pow_le_pow_right (by decide) few)⟩
  · rintro ⟨head, zeros, same, less⟩
    rcases eq_or_ne (unpadded digits) [] with nothing | nonempty
    · simp [nothing]
    · -- all zeros of the other form are among the padding
      have inside : zeros ≤ after := by
        by_contra beyond
        obtain ⟨more, rfl⟩ : ∃ more, zeros = after + (more + 1) := ⟨zeros - after - 1, by omega⟩
        have power : 0 < 10 ^ after := Nat.pow_pos (by decide)
        have equal : digitsValue (unpadded digits) = head * 10 ^ more * 10 := by
          apply Nat.eq_of_mul_eq_mul_right power
          rw [← value, same, pow_add, pow_succ]
          ring
        exact not_dvd_digitsValue all' nonempty last (equal ▸ Nat.dvd_mul_left _ _)
      obtain ⟨less_zeros, rfl⟩ := Nat.exists_eq_add_of_le inside
      have equal : head = digitsValue (unpadded digits) * 10 ^ less_zeros := by
        apply Nat.eq_of_mul_eq_mul_right (Nat.pow_pos (n := zeros) (by decide : 0 < 10))
        rw [← same, value, pow_add]
        ring
      have fits : 10 ^ ((unpadded digits).length - 1) < 10 ^ count :=
        calc 10 ^ ((unpadded digits).length - 1) ≤ digitsValue (unpadded digits) :=
              le_digitsValue all' nonempty first
          _ ≤ head := equal ▸ Nat.le_mul_of_pos_right _ (Nat.pow_pos (by decide))
          _ < 10 ^ count := less
      have := (Nat.pow_lt_pow_iff_right (by decide)).1 fits
      omega

/-! ## Texts -/

theorem significantDigits_append {mantissa exponent : List Char}
    (noMark : ∀ c ∈ mantissa, isExponentMark c = false)
    (mark : ∀ c ∈ exponent.head?, isExponentMark c = true) :
    significantDigits (mantissa ++ exponent) = unpadded (mantissa.filter Char.isDigit) := by
  unfold significantDigits
  rw [List.takeWhile_append_of_pos fun c mem => by rw [noMark c mem]; rfl]
  cases exponent with
  | nil => simp
  | cons c rest => simp [mark c rfl]

theorem isExponentMark_of_isDigit {c : Char} (digit : c.isDigit = true) :
    isExponentMark c = false := by
  rw [isExponentMark, Bool.or_eq_false_iff]
  constructor <;> exact beq_false_of_ne (by rintro rfl; cases digit)

/-- Before the exponent of a text only its digits count. -/
theorem significantDigits_parts {negative : Bool} {sign whole fraction text : List Char} {exponent : Int}
    (sign_spelled : SpellsSign negative sign) (parts : SpellsParts whole fraction exponent text) :
    significantDigits (sign ++ text) = unpadded (whole ++ fraction) := by
  cases parts with
  | @parts point mark _ digits spelled _ exponent_spelled =>
    have marked : ∀ c ∈ mark.head?, isExponentMark c = true := by
      intro c first
      rcases exponent_spelled.of_mem_head? c first with rfl | rfl <;> rfl
    have noSign : (∀ c ∈ sign, isExponentMark c = false) ∧ sign.filter Char.isDigit = [] := by
      cases sign_spelled <;> exact ⟨by simp [isExponentMark], rfl⟩
    have onlyPoint : (∀ c ∈ point, isExponentMark c = false) ∧ point.filter Char.isDigit = fraction := by
      cases spelled with
      | none => exact ⟨by simp, rfl⟩
      | point digits' =>
        refine ⟨List.forall_mem_cons.2 ⟨rfl, fun c mem => isExponentMark_of_isDigit (digits' c mem)⟩, ?_⟩
        rw [List.filter_cons_of_neg (by decide), List.filter_eq_self.2 digits']
    have noMark : ∀ c ∈ sign ++ (whole ++ point), isExponentMark c = false := by
      intro c mem
      simp only [List.mem_append] at mem
      rcases mem with mem | mem | mem
      · exact noSign.1 c mem
      · exact isExponentMark_of_isDigit (digits c mem)
      · exact onlyPoint.1 c mem
    rw [← List.append_assoc whole, ← List.append_assoc sign, significantDigits_append noMark marked]
    simp only [List.filter_append, noSign.2, onlyPoint.2, List.nil_append,
      List.filter_eq_self.2 digits]

theorem isDigit_of_parts {whole fraction text : List Char} {exponent : Int}
    (parts : SpellsParts whole fraction exponent text) : ∀ c ∈ whole ++ fraction, c.isDigit = true := by
  obtain ⟨digits, spelled, -, -⟩ := parts
  intro c mem
  rcases List.mem_append.1 mem with mem | mem
  · exact digits c mem
  · cases spelled with
    | none => cases mem
    | point digits' => exact digits' c mem

/-- A text of a finite double spells a decimal with no more digits than the text has. -/
theorem exists_decimal_of_read? {text : List Char} {x : Binary64}
    (finite : x.magnitude < Binary64.infinityMagnitude) (run : Binary64.read? text = some x) :
    ∃ d : Decimal, d.roundsTo x.magnitude = true ∧
      HasDigits (significantDigits text).length d.digits := by
  obtain ⟨sign, sign_spelled, split⟩ := exists_spellsSign text
  unfold Binary64.read? at run
  dsimp only at run
  split at run
  · next d spelled =>
    obtain ⟨whole, fraction, exponent, parts, rfl⟩ := Decimal.read?_eq_some_iff.1 spelled
    refine ⟨ofParts whole fraction exponent, ?_, ?_⟩
    · rw [Decimal.roundsTo_iff_value]
      exact ((Decimal.toBinary64_eq_iff finite).1 (Option.some.inj run)).2
    · rw [split, significantDigits_parts sign_spelled parts, ofParts]
      exact (length_unpadded_le_iff (isDigit_of_parts parts)).1 (Nat.le_refl _)
  · next noDecimal =>
    -- words stand for infinities and NaNs only
    exfalso
    unfold Binary64.ofWord? at run
    split at run
    · cases run
      exact Nat.lt_irrefl _ finite
    · split at run
      · cases run
        exact absurd finite (by decide : ¬ Binary64.nan.magnitude < Binary64.infinityMagnitude)
      · cases run

/-- No text of a finite double has fewer significant digits than the one that is written. -/
theorem length_significantDigits_readable_le {x : Binary64}
    (finite : x.magnitude < Binary64.infinityMagnitude) {text : List Char}
    (run : Binary64.read? text = some x) :
    (significantDigits x.readable).length ≤ (significantDigits text).length := by
  obtain ⟨d, rounds, few⟩ := exists_decimal_of_read? finite run
  have shortest_few := Decimal.hasDigits_shortest_of_roundsTo .up rounds few
  obtain ⟨digits, digits'⟩ := (shortest .up x.magnitude).pointParts_digits
  have nonempty := (shortest .up x.magnitude).pointParts_ne_nil
  have parts := SpellsParts.parts digits (.point digits')
    (List.append_ne_nil_of_left_ne_nil nonempty.1 _) .none
  have written := significantDigits_parts (Binary64.spellsSign_signText x.negative) parts
  rw [List.append_nil] at written
  rw [Binary64.readable_of_finite finite]
  refine written ▸ (length_unpadded_le_iff (isDigit_of_parts parts)).2 ?_
  -- written out in full the decimal may have the zeros of its exponent among its digits
  show HasDigits _ (ofParts _ _ 0).digits
  rcases (shortest .up x.magnitude).ofParts_pointParts with same | ⟨power, -, zeros⟩
  · rw [same]
    exact shortest_few
  · rw [zeros]
    exact shortest_few.mul_pow (power + 1)

end BenchLog
