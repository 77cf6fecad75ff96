import BenchLog.Decimal.Layout
import BenchLog.Decimal.Reader

/-!
# Decimals written out in full

A decimal written with a point has digits on both sides of it (`pointParts_ne_nil`,
`pointParts_digits`), which spell the decimal itself, or the decimal with the zeros of its exponent
and one more among its digits (`ofParts_pointParts`). No double is written with a line break
(`newLine_notMem_written`).
-/

namespace BenchLog

theorem toNat_of_isDigit {c : Char} (digit : c.isDigit = true) : 48 ≤ c.toNat ∧ c.toNat ≤ 57 := by
  simp only [Char.isDigit, Bool.and_eq_true, decide_eq_true_eq] at digit
  exact digit

theorem isDigit_of_mem_toDigits {n : Nat} {c : Char} (mem : c ∈ Nat.toDigits 10 n) :
    c.isDigit = true :=
  Nat.isDigit_of_mem_toDigits (by decide) (by decide) mem

theorem exists_toDigits_eq (n : Nat) :
    ∃ first more, Nat.toDigits 10 n = first :: more ∧ first.isDigit = true := by
  obtain ⟨first, more, split⟩ := List.exists_cons_of_ne_nil
    (Nat.toDigits_ne_nil : Nat.toDigits 10 n ≠ [])
  exact ⟨first, more, split, isDigit_of_mem_toDigits (split ▸ List.mem_cons_self)⟩

theorem digitsValue_toDigits (n : Nat) : digitsValue (Nat.toDigits 10 n) = n :=
  Nat.ofDigitChars_ten_toDigits

theorem digitsValue_zeros_append (n : Nat) (digits : List Char) :
    digitsValue (List.replicate n '0' ++ digits) = digitsValue digits := by
  rw [digitsValue, Nat.ofDigitChars_append, Nat.ofDigitChars_replicate_zero, Nat.mul_zero,
    digitsValue]

theorem digitsValue_append_zeros (digits : List Char) (n : Nat) :
    digitsValue (digits ++ List.replicate n '0') = digitsValue digits * Nat.pow 10 n := by
  rw [digitsValue, Nat.ofDigitChars_append, Nat.ofDigitChars_replicate_zero, Nat.mul_comm]
  rfl

/-- Only zero is written with a zero in front. -/
theorem head?_toDigits {n : Nat} (h : (Nat.toDigits 10 n).head? = some '0') : n = 0 := by
  induction n using Nat.strongRecOn with
  | _ n ih =>
    by_cases small : n < 10
    · rw [Nat.toDigits_of_lt_base small, List.head?_cons, Option.some.injEq] at h
      have value := Nat.toNat_digitChar_sub_48_of_lt_ten small
      rw [h] at value
      exact value.symm
    · obtain ⟨first, more, digits⟩ := List.exists_cons_of_ne_nil
        (Nat.toDigits_ne_nil : Nat.toDigits 10 (n / 10) ≠ [])
      rw [Nat.toDigits_of_base_le (by decide) (by omega), digits] at h
      have := ih (n / 10) (by omega) (by rw [digits]; exact h)
      omega

namespace Decimal

theorem expand_digits (d : Decimal) :
    (∀ c ∈ d.expand.1, c.isDigit = true) ∧ ∀ c ∈ d.expand.2, c.isDigit = true := by
  have zeros {n : Nat} {c : Char} (mem : c ∈ List.replicate n '0') : c.isDigit = true := by
    rw [List.eq_of_mem_replicate mem]
    rfl
  unfold Decimal.expand
  cases d.exponent with
  | ofNat n =>
    refine ⟨fun c mem => ?_, fun c mem => nomatch mem⟩
    rcases List.mem_append.1 mem with mem | mem
    · exact isDigit_of_mem_toDigits mem
    · exact zeros mem
  | negSucc n =>
    dsimp only
    split
    · exact ⟨fun c mem => isDigit_of_mem_toDigits (List.mem_of_mem_take mem),
        fun c mem => isDigit_of_mem_toDigits (List.mem_of_mem_drop mem)⟩
    · refine ⟨fun c mem => ?_, fun c mem => ?_⟩
      · rw [List.mem_singleton.1 mem]
        rfl
      · rcases List.mem_append.1 mem with mem | mem
        · exact zeros mem
        · exact isDigit_of_mem_toDigits mem

theorem expand_ne_nil (d : Decimal) : d.expand.1 ≠ [] := by
  unfold Decimal.expand
  cases d.exponent with
  | ofNat n => exact List.append_ne_nil_of_left_ne_nil Nat.toDigits_ne_nil _
  | negSucc n =>
    dsimp only
    split
    · next more =>
      intro nothing
      have := congrArg List.length nothing
      rw [List.length_take, List.length_nil] at this
      omega
    · simp

/-! ## Always with a point -/

/-- What stands before and behind the point, if there always is one. -/
def pointParts (d : Decimal) : List Char × List Char :=
  (d.expand.1, if d.expand.2.isEmpty then ['0'] else d.expand.2)

theorem pointedAlways_expand (d : Decimal) :
    pointedAlways d.expand = d.pointParts.1 ++ '.' :: d.pointParts.2 := by
  unfold pointParts
  obtain ⟨whole, fraction⟩ := d.expand
  cases fraction <;> rfl

theorem pointParts_ne_nil (d : Decimal) : d.pointParts.1 ≠ [] ∧ d.pointParts.2 ≠ [] := by
  refine ⟨expand_ne_nil d, ?_⟩
  unfold pointParts
  dsimp only
  split
  · simp
  · next some => simpa using some

theorem pointParts_digits (d : Decimal) :
    (∀ c ∈ d.pointParts.1, c.isDigit = true) ∧ ∀ c ∈ d.pointParts.2, c.isDigit = true := by
  refine ⟨(expand_digits d).1, fun c mem => ?_⟩
  unfold pointParts at mem
  dsimp only at mem
  split at mem
  · rw [List.mem_singleton.1 mem]
    rfl
  · exact (expand_digits d).2 c mem

/-- The parts stand for the decimal, as it is or with the zeros of its exponent and one more among
the digits. -/
theorem ofParts_pointParts (d : Decimal) :
    ofParts d.pointParts.1 d.pointParts.2 0 = d ∨ ∃ power : Nat, d.exponent = power ∧
      ofParts d.pointParts.1 d.pointParts.2 0 = ⟨d.digits * Nat.pow 10 (power + 1), -1⟩ := by
  obtain ⟨digits, exponent⟩ := d
  unfold pointParts ofParts expand
  cases exponent with
  | ofNat zeros =>
    refine Or.inr ⟨zeros, rfl, ?_⟩
    have whole : digitsValue (Nat.toDigits 10 digits ++ List.replicate zeros '0' ++ ['0']) =
        digits * Nat.pow 10 (zeros + 1) := by
      rw [List.append_assoc, ← List.replicate_succ', digitsValue_append_zeros, digitsValue_toDigits]
    simp only [List.isEmpty_nil, if_true, whole]
    rfl
  | negSucc n =>
    left
    have places : Int.negSucc n = 0 - ((n + 1 : Nat) : Int) := by omega
    dsimp only
    split
    · next some_whole =>
      have length : ((Nat.toDigits 10 digits).drop
          ((Nat.toDigits 10 digits).length - (n + 1))).length = n + 1 := by
        rw [List.length_drop]
        omega
      have nonempty := List.isEmpty_eq_false_iff.2 (List.ne_nil_of_length_eq_add_one length)
      simp only [nonempty, Bool.false_eq_true, if_false, List.take_append_drop,
        digitsValue_toDigits, length, places]
    · next no_whole =>
      have length : (List.replicate (n + 1 - (Nat.toDigits 10 digits).length) '0'
          ++ Nat.toDigits 10 digits).length = n + 1 := by
        rw [List.length_append, List.length_replicate]
        omega
      have nonempty := List.isEmpty_eq_false_iff.2 (List.ne_nil_of_length_eq_add_one length)
      simp only [nonempty, Bool.false_eq_true, if_false, length, places]
      rw [show ['0'] = List.replicate 1 '0' from rfl, digitsValue_zeros_append,
        digitsValue_zeros_append, digitsValue_toDigits]

/-! ## On one line -/

theorem newLine_notMem_digits {digits : List Char} (all : ∀ c ∈ digits, c.isDigit = true) :
    '\n' ∉ digits := by
  intro mem
  cases all _ mem

theorem newLine_notMem_pointed (d : Decimal) : '\n' ∉ pointed d.expand := by
  obtain ⟨digits, digits'⟩ := expand_digits d
  have whole := newLine_notMem_digits digits
  have fraction := newLine_notMem_digits digits'
  generalize d.expand = parts at whole fraction ⊢
  obtain ⟨before, behind⟩ := parts
  cases behind with
  | nil => exact whole
  | cons digit more =>
    exact List.not_mem_append whole (List.not_mem_cons_of_ne_of_not_mem (by decide) fraction)

theorem newLine_notMem_pointedAlways (d : Decimal) : '\n' ∉ pointedAlways d.expand := by
  obtain ⟨digits, digits'⟩ := pointParts_digits d
  rw [pointedAlways_expand]
  exact List.not_mem_append (newLine_notMem_digits digits)
    (List.not_mem_cons_of_ne_of_not_mem (by decide) (newLine_notMem_digits digits'))

end Decimal

/-- A double is written on one line if its magnitude is. -/
theorem Binary64.newLine_notMem_written {finite : Nat → List Char} (single : ∀ m, '\n' ∉ finite m)
    (x : Binary64) : '\n' ∉ x.written finite := by
  have sign : '\n' ∉ if x.negative then ['-'] else [] := by cases x.negative <;> decide
  unfold written
  dsimp only
  split
  · decide
  · split
    · exact List.not_mem_append sign (by decide)
    · exact List.not_mem_append sign (single _)

end BenchLog
