import BenchLog.Proofs.Decimal.Fewest
import BenchLog.Proofs.Decimal.Grammar

/-!
# Readable numbers

A finite double is written with a sign, if it is negative, digits, a point and digits
(`readable_of_finite`), and every double is read back from its text, only that all NaNs are read as
one (`read?_readable`).
-/

namespace BenchLog

namespace Decimal

theorem value_pointParts (d : Decimal) :
    (ofParts d.pointParts.1 d.pointParts.2 0).value = d.value := by
  rcases d.ofParts_pointParts with same | ⟨power, exponent, zeros⟩
  · rw [same]
  · rw [zeros, value, value, exponent]
    simp only [Nat.pow_eq]
    push_cast
    rw [zpow_natCast, zpow_neg_one, pow_succ]
    ring

end Decimal

namespace Binary64

open Decimal (ofParts pointParts shortest)

variable {x : Binary64}

/-- The sign of a text. -/
def signText (negative : Bool) : List Char := if negative then ['-'] else []

theorem readable_of_finite (finite : x.magnitude < infinityMagnitude) :
    x.readable = signText x.negative ++ ((shortest .up x.magnitude).pointParts.1 ++
      '.' :: (shortest .up x.magnitude).pointParts.2) := by
  rw [← Decimal.pointedAlways_expand]
  unfold readable written
  simp [isNaN_of_finite finite, isInfinite_of_finite finite, signText]

theorem spellsSign_signText (negative : Bool) : SpellsSign negative (signText negative) := by
  cases negative with
  | true => exact .minus
  | false => exact .none

/-- A number with a point is read as its digits stand. -/
theorem read?_signText (negative : Bool) {whole fraction : List Char} (nonempty : whole ≠ [])
    (digits : ∀ c ∈ whole, c.isDigit = true) (digits' : ∀ c ∈ fraction, c.isDigit = true) :
    read? (signText negative ++ (whole ++ '.' :: fraction)) =
      some ((ofParts whole fraction 0).toBinary64 negative) := by
  have parts := SpellsParts.parts digits (.point digits') (List.append_ne_nil_of_left_ne_nil nonempty _)
    .none
  rw [List.append_nil] at parts
  exact read?_of_spellsParts (spellsSign_signText negative) parts

theorem read?_readable_of_finite (finite : x.magnitude < infinityMagnitude) :
    read? x.readable = some x := by
  have nonempty := (shortest .up x.magnitude).pointParts_ne_nil
  have digits := (shortest .up x.magnitude).pointParts_digits
  rw [readable_of_finite finite, read?_signText x.negative nonempty.1 digits.1 digits.2,
    (Decimal.toBinary64_eq_iff finite).2 ⟨rfl, ?_⟩]
  rw [Decimal.value_pointParts, ← Decimal.roundsTo_iff_value]
  exact Decimal.roundsTo_shortest .up x.magnitude

theorem readable_of_infinite (infinite : x.magnitude = infinityMagnitude) :
    x.readable = signText x.negative ++ ['i', 'n', 'f'] := by
  unfold readable written
  simp [isNaN, isInfinite, infinite, signText]

theorem readable_of_isNaN (nan : x.isNaN = true) : x.readable = ['N', 'a', 'N'] := by
  unfold readable written
  rw [if_pos nan]

theorem read?_readable_of_infinite (infinite : x.magnitude = infinityMagnitude) :
    read? x.readable = some x := by
  rw [readable_of_infinite infinite]
  obtain ⟨negative, magnitude, bound⟩ := x
  subst infinite
  cases negative with
  | false => rfl
  | true => rfl

/-- What is written is read back, a NaN as some NaN. -/
theorem read?_readable (x : Binary64) :
    ∃ y, read? x.readable = some y ∧ (y = x ∨ x.isNaN = true ∧ y.isNaN = true) := by
  rcases Nat.lt_trichotomy x.magnitude infinityMagnitude with finite | infinite | more
  · exact ⟨x, read?_readable_of_finite finite, Or.inl rfl⟩
  · exact ⟨x, read?_readable_of_infinite infinite, Or.inl rfl⟩
  · have isNaN : x.isNaN = true := decide_eq_true more
    refine ⟨nan, ?_, Or.inr ⟨isNaN, by decide⟩⟩
    rw [readable_of_isNaN isNaN]
    decide +kernel

end Binary64

end BenchLog
