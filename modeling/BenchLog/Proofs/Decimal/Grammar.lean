import BenchLog.Proofs.Binary64.Value
import BenchLog.Proofs.Decimal.Layout
import Mathlib.Data.List.TakeWhile

/-!
# Which texts are numbers

Texts that spell a whole number (`SpellsInteger`) or a decimal (`SpellsParts`, `SpellsDecimal`), with
digits without end. The readers take these and no others: `readInteger?_eq_some_iff` for whole numbers
of 64 signed bits, `Decimal.read?_eq_some_iff` for decimals without a sign. What a text spells, it
spells in one way only, since a sign, a point or an exponent mark is no digit.
-/

namespace BenchLog

open Binary64 (signed)

/-! ## Texts -/

/-- An optional sign. -/
inductive SpellsSign : Bool → List Char → Prop
  | none : SpellsSign false []
  | plus : SpellsSign false ['+']
  | minus : SpellsSign true ['-']

/-- An optional sign and at least one digit. -/
inductive SpellsInteger : Int → List Char → Prop
  | digits {negative : Bool} {sign digits : List Char} : SpellsSign negative sign → digits ≠ [] →
      (∀ c ∈ digits, c.isDigit = true) →
      SpellsInteger (signed negative (digitsValue digits)) (sign ++ digits)

/-- A point and the digits behind it, or neither. -/
inductive SpellsFraction : List Char → List Char → Prop
  | none : SpellsFraction [] []
  | point {fraction : List Char} : (∀ c ∈ fraction, c.isDigit = true) →
      SpellsFraction fraction ('.' :: fraction)

/-- An exponent behind its mark, or none. -/
inductive SpellsExponent : Int → List Char → Prop
  | none : SpellsExponent 0 []
  | mark {mark : Char} {exponent : Int} {text : List Char} : mark = 'e' ∨ mark = 'E' →
      SpellsInteger exponent text → SpellsExponent exponent (mark :: text)

/-- The parts of a decimal without a sign, with a digit before or behind the point. -/
inductive SpellsParts : List Char → List Char → Int → List Char → Prop
  | parts {whole fraction point mark : List Char} {exponent : Int} :
      (∀ c ∈ whole, c.isDigit = true) → SpellsFraction fraction point → whole ++ fraction ≠ [] →
      SpellsExponent exponent mark → SpellsParts whole fraction exponent (whole ++ (point ++ mark))

/-- A decimal with an optional sign, and the number that it stands for. -/
inductive SpellsDecimal (negative : Bool) : ℚ → List Char → Prop
  | parts {sign whole fraction text : List Char} {exponent : Int} : SpellsSign negative sign →
      SpellsParts whole fraction exponent text →
      SpellsDecimal negative
        ((if negative then -1 else 1) *
          ((digitsValue whole + digitsValue fraction / 10 ^ fraction.length) * 10 ^ exponent))
        (sign ++ text)

/-- A word with an optional sign, in any letter case. -/
inductive SpellsWord (negative : Bool) (word : String) : List Char → Prop
  | letters {sign letters : List Char} : SpellsSign negative sign →
      letters.map Char.toLower = word.toList → SpellsWord negative word (sign ++ letters)

/-! ## Signs -/

theorem exists_spellsSign (text : List Char) :
    ∃ sign, SpellsSign (takeSign text).1 sign ∧ text = sign ++ (takeSign text).2 := by
  unfold takeSign
  split
  · exact ⟨['-'], .minus, rfl⟩
  · exact ⟨['+'], .plus, rfl⟩
  · exact ⟨[], .none, rfl⟩

/-- A sign is split off where no further sign follows. -/
theorem takeSign_append {negative : Bool} {sign rest : List Char} (spelled : SpellsSign negative sign)
    (unsigned : ∀ c ∈ rest.head?, c ≠ '-' ∧ c ≠ '+') : takeSign (sign ++ rest) = (negative, rest) := by
  cases spelled with
  | plus => rfl
  | minus => rfl
  | none =>
    rw [List.nil_append]
    unfold takeSign
    split
    · exact absurd rfl (unsigned _ rfl).1
    · exact absurd rfl (unsigned _ rfl).2
    · rfl

theorem ne_sign_of_isDigit {c : Char} (digit : c.isDigit = true) : c ≠ '-' ∧ c ≠ '+' := by
  constructor <;> rintro rfl <;> cases digit

/-! ## Whole numbers -/

theorem spellsInteger_iff {n : Int} {text : List Char} : SpellsInteger n text ↔
    (takeSign text).2 ≠ [] ∧ (∀ c ∈ (takeSign text).2, c.isDigit = true) ∧
      n = signed (takeSign text).1 (digitsValue (takeSign text).2) := by
  constructor
  · rintro ⟨sign, nonempty, digits⟩
    rw [takeSign_append sign fun c first => ne_sign_of_isDigit (digits c (List.mem_of_mem_head? first))]
    exact ⟨nonempty, digits, rfl⟩
  · rintro ⟨nonempty, digits, rfl⟩
    obtain ⟨sign, spelled, split⟩ := exists_spellsSign text
    have whole := SpellsInteger.digits spelled nonempty digits
    rwa [← split] at whole

/-- No text spells two whole numbers. -/
theorem SpellsInteger.unique {m n : Int} {text : List Char} (spelled : SpellsInteger m text)
    (spelled' : SpellsInteger n text) : m = n :=
  (spellsInteger_iff.1 spelled).2.2.trans (spellsInteger_iff.1 spelled').2.2.symm

theorem readInteger?_eq_some_iff {n : Int} {text : List Char} :
    readInteger? text = some n ↔ SpellsInteger n text ∧ fitsSigned64 n = true := by
  unfold readInteger?
  rw [spellsInteger_iff]
  obtain ⟨negative, digits⟩ := takeSign text
  dsimp only
  split
  · next bad =>
    rw [Bool.or_eq_true, List.isEmpty_iff, Bool.not_eq_true', List.all_eq_false] at bad
    refine iff_of_false (by simp) fun ⟨⟨nonempty, whole, _⟩, _⟩ => ?_
    obtain ⟨c, mem, other⟩ := bad.resolve_left nonempty
    exact other (whole c mem)
  · next good =>
    rw [Bool.or_eq_true, not_or, List.isEmpty_iff, Bool.not_eq_true', Bool.not_eq_false,
      List.all_eq_true] at good
    show (if fitsSigned64 (signed negative _) = true then some (signed negative _) else none) = _ ↔ _
    rw [Option.ite_none_right_eq_some, Option.some.injEq]
    constructor
    · rintro ⟨fits, rfl⟩
      exact ⟨⟨good.1, good.2, rfl⟩, fits⟩
    · rintro ⟨⟨-, -, rfl⟩, fits⟩
      exact ⟨fits, rfl⟩

/-! ## Decimals -/

theorem not_isDigit_of_head?_point {fraction point rest : List Char} (spelled : SpellsFraction fraction point)
    (stop : ∀ c ∈ rest.head?, c.isDigit = false) : ∀ c ∈ (point ++ rest).head?, c.isDigit = false := by
  cases spelled with
  | none => exact stop
  | point _ =>
    rintro c ⟨⟩
    rfl

theorem SpellsExponent.of_mem_head? {exponent : Int} {text : List Char}
    (spelled : SpellsExponent exponent text) : ∀ c ∈ text.head?, c = 'e' ∨ c = 'E' := by
  cases spelled with
  | none => simp
  | mark marked _ =>
    rintro c ⟨⟩
    exact marked

namespace Decimal

theorem readExponent?_eq_some_iff {exponent : Int} {text : List Char} :
    readExponent? text = some exponent ↔ SpellsExponent exponent text := by
  cases text with
  | nil =>
    constructor
    · rintro ⟨⟩
      exact .none
    · rintro ⟨⟩
      rfl
  | cons mark text =>
    have marked : SpellsExponent exponent (mark :: text) ↔
        (mark = 'e' ∨ mark = 'E') ∧ SpellsInteger exponent text :=
      ⟨fun | .mark h h' => ⟨h, h'⟩, fun ⟨h, h'⟩ => .mark h h'⟩
    rw [marked, spellsInteger_iff, readExponent?]
    obtain ⟨negative, digits⟩ := takeSign text
    show (if _ then some (signed negative (digitsValue digits)) else none) = _ ↔ _
    rw [Option.ite_none_right_eq_some, Option.some.injEq, eq_comm (b := exponent)]
    simp [and_assoc]

/-- The point and the digits behind it are split off. -/
theorem takeFraction_append {fraction point rest : List Char}
    (spelled : SpellsFraction fraction point) (stop : ∀ c ∈ rest.head?, c = 'e' ∨ c = 'E') :
    takeFraction (point ++ rest) = (fraction, rest) := by
  cases spelled with
  | none =>
    rw [List.nil_append]
    unfold takeFraction
    split
    · rcases stop _ rfl with other | other <;> cases other
    · rfl
  | point digits =>
    refine spanDigits_append digits fun c first => ?_
    rcases stop c first with rfl | rfl <;> rfl

theorem exists_spellsFraction (text : List Char) : ∃ point,
    SpellsFraction (takeFraction text).1 point ∧ text = point ++ (takeFraction text).2 := by
  unfold takeFraction
  split
  · next rest =>
    exact ⟨_, .point fun c mem => List.mem_takeWhile_imp mem,
      congrArg (List.cons '.') List.takeWhile_append_dropWhile.symm⟩
  · exact ⟨[], .none, rfl⟩

/-- The decimals without a sign are those that are spelled in parts. -/
theorem read?_eq_some_iff {d : Decimal} {text : List Char} :
    read? text = some d ↔ ∃ whole fraction exponent, SpellsParts whole fraction exponent text ∧
      d = ofParts whole fraction exponent := by
  unfold read?
  constructor
  · obtain ⟨point, spelled, split⟩ := exists_spellsFraction (spanDigits text).2
    intro run
    dsimp only at run
    split at run
    · cases run
    · next some_digit =>
      obtain ⟨exponent, marked, rfl⟩ := Option.map_eq_some_iff.1 run
      rw [Bool.and_eq_true, List.isEmpty_iff, List.isEmpty_iff] at some_digit
      refine ⟨_, _, _, ?_, rfl⟩
      have digits : ∀ c ∈ (spanDigits text).1, c.isDigit = true :=
        fun c mem => List.mem_takeWhile_imp mem
      have parts := SpellsParts.parts digits spelled (by rwa [ne_eq, List.append_eq_nil_iff])
        (readExponent?_eq_some_iff.1 marked)
      rw [← split] at parts
      rwa [show (spanDigits text).1 ++ (spanDigits text).2 = text from
        List.takeWhile_append_dropWhile] at parts
  · rintro ⟨whole, fraction, exponent, ⟨digits, spelled, some_digit, marked⟩, rfl⟩
    have stop := marked.of_mem_head?
    rw [spanDigits_append digits (not_isDigit_of_head?_point spelled fun c first => by
      rcases stop c first with rfl | rfl <;> rfl)]
    dsimp only
    rw [takeFraction_append spelled stop, readExponent?_eq_some_iff.2 marked]
    dsimp only
    rw [if_neg (by simpa using some_digit)]
    rfl

theorem value_ofParts (whole fraction : List Char) (exponent : Int) :
    (ofParts whole fraction exponent).value =
      (digitsValue whole + digitsValue fraction / 10 ^ fraction.length) * 10 ^ exponent := by
  have digits : digitsValue (whole ++ fraction) =
      10 ^ fraction.length * digitsValue whole + digitsValue fraction := by
    rw [digitsValue, Nat.ofDigitChars_append, Nat.ofDigitChars_eq_ofDigitChars_zero]
    rfl
  rw [value, ofParts, digits, zpow_sub₀ (by norm_num), zpow_natCast]
  push_cast
  field_simp

end Decimal

/-! ## Doubles -/

/-- A decimal without a sign begins with a digit or a point. -/
theorem SpellsParts.exists_cons {whole fraction text : List Char} {exponent : Int}
    (spelled : SpellsParts whole fraction exponent text) :
    ∃ c rest, text = c :: rest ∧ (c.isDigit = true ∨ c = '.') := by
  obtain ⟨digits, point, some_digit, -⟩ := spelled
  cases whole with
  | cons digit more => exact ⟨digit, _, rfl, Or.inl (digits digit List.mem_cons_self)⟩
  | nil =>
    cases point with
    | none => exact absurd rfl some_digit
    | point _ => exact ⟨'.', _, rfl, Or.inr rfl⟩

theorem SpellsParts.unsigned {whole fraction text : List Char} {exponent : Int}
    (spelled : SpellsParts whole fraction exponent text) : ∀ c ∈ text.head?, c ≠ '-' ∧ c ≠ '+' := by
  obtain ⟨first, rest, rfl, start⟩ := spelled.exists_cons
  rintro c ⟨⟩
  rcases start with digit | rfl
  · exact ne_sign_of_isDigit digit
  · decide

/-- No text spells two decimals. -/
theorem SpellsDecimal.unique {negative negative' : Bool} {q q' : ℚ} {text : List Char}
    (spelled : SpellsDecimal negative q text) (spelled' : SpellsDecimal negative' q' text) :
    q = q' := by
  generalize same : text = text' at spelled'
  cases spelled with
  | parts sign parts =>
    cases spelled' with
    | parts sign' parts' =>
      have taken := takeSign_append sign parts.unsigned
      rw [same, takeSign_append sign' parts'.unsigned, Prod.mk.injEq] at taken
      obtain ⟨rfl, rfl⟩ := taken
      have read := Decimal.read?_eq_some_iff.2 ⟨_, _, _, parts, rfl⟩
      rw [Decimal.read?_eq_some_iff.2 ⟨_, _, _, parts', rfl⟩] at read
      rw [← Decimal.value_ofParts, ← Decimal.value_ofParts, Option.some.inj read]

theorem Decimal.read?_eq_none {text : List Char}
    (start : ∀ c ∈ text.head?, c.isDigit = false ∧ c ≠ '.') : read? text = none := by
  refine Option.eq_none_iff_forall_ne_some.2 fun d decimal => ?_
  obtain ⟨whole, fraction, exponent, parts, -⟩ := read?_eq_some_iff.1 decimal
  obtain ⟨c, rest, rfl, digit | point⟩ := parts.exists_cons
  · rw [(start c rfl).1] at digit
    cases digit
  · exact (start c rfl).2 point

theorem toLower_of_isDigit {c : Char} (digit : c.isDigit = true) : c.toLower = c := by
  refine dif_neg fun upper => ?_
  have below : 'A'.val.toNat ≤ c.val.toNat := UInt32.le_iff_toNat_le.1 upper.1
  have range := toNat_of_isDigit digit
  rw [Char.toNat_val, Char.toNat_val, show 'A'.toNat = 65 from rfl] at below
  omega

/-- A word begins with a letter. -/
theorem not_isDigit_of_toLower {c : Char} (letter : c.toLower = 'i' ∨ c.toLower = 'n') :
    c.isDigit = false ∧ c ≠ '.' ∧ c ≠ '-' ∧ c ≠ '+' := by
  refine ⟨Bool.eq_false_iff.2 fun digit => ?_, ?_, ?_, ?_⟩
  · rw [toLower_of_isDigit digit] at letter
    rcases letter with rfl | rfl <;> cases digit
  all_goals
    rintro rfl
    exact absurd letter (by decide)

namespace Binary64

theorem read?_of_spellsParts {negative : Bool} {sign whole fraction text : List Char} {exponent : Int}
    (sign_spelled : SpellsSign negative sign) (parts : SpellsParts whole fraction exponent text) :
    read? (sign ++ text) = some ((Decimal.ofParts whole fraction exponent).toBinary64 negative) := by
  unfold read?
  rw [takeSign_append sign_spelled parts.unsigned]
  dsimp only
  rw [Decimal.read?_eq_some_iff.2 ⟨whole, fraction, exponent, parts, rfl⟩]

/-- A decimal is read as the double that it is rounded to. -/
theorem read?_of_spellsDecimal {negative : Bool} {q : ℚ} {text : List Char}
    (spelled : SpellsDecimal negative q text) : ∃ x, read? text = some x ∧ Rounds negative q x := by
  obtain ⟨sign, parts⟩ := spelled
  refine ⟨_, read?_of_spellsParts sign parts, ?_⟩
  rw [← Decimal.value_ofParts]
  exact Decimal.rounds_toBinary64 negative _

/-- A word is read in any letter case. -/
theorem read?_of_spellsWord {negative : Bool} {word : String} {text : List Char}
    (spelled : SpellsWord negative word text)
    (letter : word.toList.head? = some 'i' ∨ word.toList.head? = some 'n') :
    read? text = ofWord? negative word.toList := by
  cases spelled with
  | @letters sign letters sign_spelled same =>
    have start {c : Char} (first : letters.head? = some c) :
        c.isDigit = false ∧ c ≠ '.' ∧ c ≠ '-' ∧ c ≠ '+' := by
      rw [← same, List.head?_map, first, Option.map_some, Option.some.injEq, Option.some.injEq]
        at letter
      exact not_isDigit_of_toLower letter
    unfold read?
    rw [takeSign_append sign_spelled fun c first => (start first).2.2]
    dsimp only
    rw [Decimal.read?_eq_none fun c first => ⟨(start first).1, (start first).2.1⟩, same]

/-- Only decimals and three words are read as doubles. -/
theorem exists_spells_of_read? {text : List Char} {x : Binary64} (run : read? text = some x) :
    (∃ negative q, SpellsDecimal negative q text) ∨ ∃ negative, SpellsWord negative "inf" text ∨
      SpellsWord negative "infinity" text ∨ SpellsWord negative "nan" text := by
  obtain ⟨sign, spelled, split⟩ := exists_spellsSign text
  unfold read? at run
  dsimp only at run
  split at run
  · next d decimal =>
    obtain ⟨whole, fraction, exponent, parts, -⟩ := Decimal.read?_eq_some_iff.1 decimal
    have whole_text := SpellsDecimal.parts spelled parts
    rw [← split] at whole_text
    exact Or.inl ⟨_, _, whole_text⟩
  · have word {word : String} (same : (takeSign text).2.map Char.toLower = word.toList) :
        SpellsWord (takeSign text).1 word text := by
      have whole_text := SpellsWord.letters spelled same
      rwa [← split] at whole_text
    refine Or.inr ⟨(takeSign text).1, ?_⟩
    unfold ofWord? at run
    split at run
    · next long =>
      rw [Bool.or_eq_true, decide_eq_true_iff, decide_eq_true_iff] at long
      exact long.imp word fun same => Or.inl (word same)
    · split at run
      · next same => exact Or.inr (Or.inr (word same))
      · cases run

end Binary64

end BenchLog
