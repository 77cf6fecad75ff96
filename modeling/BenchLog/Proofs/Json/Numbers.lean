import BenchLog.Json.Number
import BenchLog.Json.Printer
import BenchLog.Json.Reader
import BenchLog.Proofs.Decimal.Layout

/-!
# JSON numbers read back

A number that is written with digits on both sides of its point and without a needless leading zero
(`Number.WellFormed`) reads back as it is, where what stands behind it cannot go on with it
(`readNumber?_render`). Counts and doubles are written so (`wellFormed_natural`,
`wellFormed_ofDecimal`).
-/

namespace BenchLog.Json

open Decimal (expand_digits expand_ne_nil)

/-- The digits of the number are as they are read. -/
structure Number.WellFormed (n : Number) : Prop where
  whole_ne_nil : n.whole ≠ []
  whole_digits : ∀ c ∈ n.whole, c.isDigit = true
  no_leading_zero : n.whole.head? = some '0' → n.whole = ['0']
  fraction_digits : ∀ c ∈ n.fraction, c.isDigit = true

/-- The text does not go on with a number before it. -/
def Stops (text : List Char) : Prop :=
  ∀ c ∈ text.head?, c.isDigit = false ∧ c ≠ '.' ∧ c ≠ 'e' ∧ c ≠ 'E'

theorem stops_cons {c : Char} (rest : List Char)
    (h : c.isDigit = false ∧ c ≠ '.' ∧ c ≠ 'e' ∧ c ≠ 'E') : Stops (c :: rest) := by
  intro d head
  obtain rfl := Option.some.inj head
  exact h

/-! ## Parts of a number -/

theorem readWhole?_append {whole rest : List Char} (nonempty : whole ≠ [])
    (digits : ∀ c ∈ whole, c.isDigit = true) (zero : whole.head? = some '0' → whole = ['0'])
    (stops : ∀ c ∈ rest.head?, c.isDigit = false) :
    readWhole? (whole ++ rest) = some (whole, rest) := by
  rw [readWhole?, spanDigits_append digits stops]
  by_cases leading : whole.head? = some '0'
  · simp [zero leading]
  · simp [nonempty, leading]

theorem readFraction?_append {fraction rest : List Char}
    (digits : ∀ c ∈ fraction, c.isDigit = true)
    (stops : ∀ c ∈ rest.head?, c.isDigit = false ∧ c ≠ '.') :
    readFraction? ((if fraction.isEmpty then [] else '.' :: fraction) ++ rest) =
      some (fraction, rest) := by
  by_cases empty : fraction = []
  · subst empty
    simp only [List.isEmpty_nil, if_true, List.nil_append]
    rw [readFraction?]
    rintro tail rfl
    exact (stops '.' rfl).2 rfl
  · simp only [List.isEmpty_iff, empty, if_false, List.cons_append, readFraction?,
      spanDigits_append digits fun c head => (stops c head).1]

theorem readExponent?_render (exponent : Option Int) {rest : List Char} (stops : Stops rest) :
    readExponent? (renderExponent exponent ++ rest) = some (exponent, rest) := by
  have digits (n : Nat) : ∀ c ∈ Nat.toDigits 10 n, c.isDigit = true := fun c mem =>
    Nat.isDigit_of_mem_toDigits (by decide) (by decide) mem
  have span (n : Nat) := spanDigits_append (digits n) fun c head => (stops c head).1
  cases exponent with
  | none =>
    cases rest with
    | nil => rfl
    | cons c rest =>
      obtain ⟨-, -, e, capital⟩ := stops c rfl
      simp [renderExponent, readExponent?, e, capital]
  | some power =>
    cases power with
    | ofNat n =>
      simp [renderExponent, readExponent?, takeSign, span, digitsValue, Nat.toDigits_ne_nil]
    | negSucc n =>
      simp [renderExponent, readExponent?, takeSign, span, digitsValue, Nat.toDigits_ne_nil]
      omega

theorem head?_renderExponent (exponent : Option Int) {rest : List Char} (stops : Stops rest) :
    ∀ c ∈ (renderExponent exponent ++ rest).head?, c.isDigit = false ∧ c ≠ '.' := by
  intro c head
  cases exponent with
  | none => exact ⟨(stops c head).1, (stops c head).2.1⟩
  | some power =>
    cases power <;>
    · obtain rfl := Option.some.inj head
      decide

/-! ## Whole numbers -/

theorem readUnsigned?_render (n : Number) (wellFormed : n.WellFormed) {rest : List Char}
    (stops : Stops rest) :
    readUnsigned? n.negative (n.whole ++ ((if n.fraction.isEmpty then [] else '.' :: n.fraction)
      ++ (renderExponent n.exponent ++ rest))) = some (n, rest) := by
  have fraction := readFraction?_append wellFormed.fraction_digits
    (head?_renderExponent n.exponent stops)
  have afterWhole : ∀ c ∈ ((if n.fraction.isEmpty then [] else '.' :: n.fraction)
      ++ (renderExponent n.exponent ++ rest)).head?, c.isDigit = false := by
    intro c head
    split at head
    · exact (head?_renderExponent n.exponent stops c head).1
    · obtain rfl := Option.some.inj head
      rfl
  simp only [readUnsigned?, readWhole?_append wellFormed.whole_ne_nil wellFormed.whole_digits
    wellFormed.no_leading_zero afterWhole, fraction, readExponent?_render n.exponent stops,
    Option.bind_eq_bind, Option.bind_some]
  rfl

/-- A well-formed number reads back. -/
theorem readNumber?_render (n : Number) (wellFormed : n.WellFormed) {rest : List Char}
    (stops : Stops rest) : readNumber? (n.render ++ rest) = some (n, rest) := by
  have unsigned := readUnsigned?_render n wellFormed stops
  simp only [Number.render, List.append_assoc]
  cases sign : n.negative with
  | true =>
    rw [sign] at unsigned
    exact unsigned
  | false =>
    rw [sign] at unsigned
    obtain ⟨first, more, whole⟩ := List.exists_cons_of_ne_nil wellFormed.whole_ne_nil
    have digit := wellFormed.whole_digits first (by simp [whole])
    simp only [Bool.false_eq_true, if_false, List.nil_append]
    rw [whole, List.cons_append] at unsigned ⊢
    rw [readNumber?, unsigned]
    rintro tail ⟨⟩
    cases digit

/-! ## Numbers that are written -/

theorem wellFormed_natural (n : Nat) : Number.WellFormed { whole := Nat.toDigits 10 n } where
  whole_ne_nil := Nat.toDigits_ne_nil
  whole_digits c mem := isDigit_of_mem_toDigits mem
  no_leading_zero zero := by
    rw [show n = 0 from head?_toDigits zero]
    rfl
  fraction_digits c mem := nomatch mem

/-! ### Decimals -/

theorem expand_leading_zero {d : Decimal} (zero : d.digits = 0 → d.exponent = 0)
    (h : d.expand.1.head? = some '0') : d.expand.1 = ['0'] := by
  obtain ⟨first, more, digits⟩ := List.exists_cons_of_ne_nil
    (Nat.toDigits_ne_nil : Nat.toDigits 10 d.digits ≠ [])
  have leading : first = '0' → d.digits = 0 := by
    rintro rfl
    exact head?_toDigits (by rw [digits]; rfl)
  unfold Decimal.expand at h ⊢
  cases exponent : d.exponent with
  | ofNat n =>
    simp only [exponent, digits, List.cons_append, List.head?_cons, Option.some.injEq] at h
    have none := leading h
    obtain rfl : n = 0 := by simpa [exponent] using zero none
    simp only [none]
    rfl
  | negSucc n =>
    simp only [exponent] at h ⊢
    split at h
    · next more' =>
      rw [List.head?_take, if_neg (by omega), digits, List.head?_cons, Option.some.injEq] at h
      rw [leading h] at more'
      simp only [Nat.toDigits_zero, List.length_singleton] at more'
      omega
    · next all => rw [if_neg all]

/-- A decimal is written in a way that reads back, if zero has no exponent. -/
theorem wellFormed_ofDecimal (negative : Bool) {d : Decimal}
    (zero : d.digits = 0 → d.exponent = 0) : (Number.ofDecimal negative d).WellFormed := by
  unfold Number.ofDecimal
  split
  · refine ⟨expand_ne_nil d, (expand_digits d).1, expand_leading_zero zero, fun c mem => ?_⟩
    dsimp only at mem
    split at mem
    · rw [List.mem_singleton.1 mem]
      rfl
    · exact (expand_digits d).2 c mem
  · obtain ⟨first, more, digits⟩ := List.exists_cons_of_ne_nil
      (Nat.toDigits_ne_nil : Nat.toDigits 10 d.digits ≠ [])
    have all : ∀ c ∈ first :: more, c.isDigit = true := fun c mem =>
      isDigit_of_mem_toDigits (digits ▸ mem)
    dsimp only
    rw [digits]
    refine ⟨by simp, fun c mem => all c (List.mem_of_mem_take mem), fun h => ?_,
      fun c mem => all c (List.mem_of_mem_drop mem)⟩
    rw [List.take_succ_cons, List.take_zero, List.head?_cons, Option.some.injEq] at h
    rw [h]
    rfl

end BenchLog.Json
