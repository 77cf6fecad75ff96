import BenchLog.Text.Blank
import Mathlib.Data.List.TakeWhile

/-!
# Trimmed texts

A text is trimmed (`IsTrimmed`) to what lies between the white space at its ends. This is unique, and
`trim` finds it (`isTrimmed_iff`).
-/

namespace BenchLog

/-- A run of characters ends where another one stands. -/
theorem span_append {p : Char → Bool} {run rest : List Char} (all : ∀ c ∈ run, p c = true)
    (stop : ∀ c ∈ rest.head?, p c = false) :
    (run ++ rest).takeWhile p = run ∧ (run ++ rest).dropWhile p = rest := by
  rw [List.takeWhile_append_of_pos all, List.dropWhile_append_of_pos all]
  cases rest with
  | nil => simp
  | cons c rest => simp [stop c rfl]

/-- Only blank characters are missing, at both ends, and none is left there. -/
structure IsTrimmed (text trimmed : List Char) : Prop where
  ends : ∃ front back, text = front ++ (trimmed ++ back) ∧ (∀ c ∈ front, isBlank c = true) ∧
    ∀ c ∈ back, isBlank c = true
  first : ∀ c ∈ trimmed.head?, isBlank c = false
  last : ∀ c ∈ trimmed.getLast?, isBlank c = false

theorem trimStart_append {front rest : List Char} (blank : ∀ c ∈ front, isBlank c = true)
    (stop : ∀ c ∈ rest.head?, isBlank c = false) : trimStart (front ++ rest) = rest :=
  (span_append blank stop).2

theorem trimEnd_append {rest back : List Char} (blank : ∀ c ∈ back, isBlank c = true)
    (stop : ∀ c ∈ rest.getLast?, isBlank c = false) : trimEnd (rest ++ back) = rest := by
  rw [trimEnd, List.reverse_append, (span_append _ _).2, List.reverse_reverse]
  · exact fun c mem => blank c (List.mem_reverse.1 mem)
  · rwa [List.head?_reverse]

theorem exists_trimStart (text : List Char) :
    (∃ front, text = front ++ trimStart text ∧ ∀ c ∈ front, isBlank c = true) ∧
      ∀ c ∈ (trimStart text).head?, isBlank c = false := by
  refine ⟨⟨text.takeWhile isBlank, List.takeWhile_append_dropWhile.symm,
    fun c mem => List.mem_takeWhile_imp mem⟩, fun c first => ?_⟩
  have stop := List.head?_dropWhile_not isBlank text
  rw [← trimStart, first] at stop
  exact stop

theorem exists_trimEnd (text : List Char) :
    (∃ back, text = trimEnd text ++ back ∧ ∀ c ∈ back, isBlank c = true) ∧
      ∀ c ∈ (trimEnd text).getLast?, isBlank c = false := by
  obtain ⟨⟨back, split, blank⟩, stop⟩ := exists_trimStart text.reverse
  refine ⟨⟨back.reverse, ?_, fun c mem => blank c (List.mem_reverse.1 mem)⟩, ?_⟩
  · rw [trimEnd, ← trimStart, ← List.reverse_append, ← split, List.reverse_reverse]
  · rwa [trimEnd, ← trimStart, List.getLast?_reverse]

theorem isTrimmed_trim (text : List Char) : IsTrimmed text (trim text) := by
  obtain ⟨⟨front, split, blank⟩, first⟩ := exists_trimStart text
  obtain ⟨⟨back, split', blank'⟩, last⟩ := exists_trimEnd (trimStart text)
  refine ⟨⟨front, back, ?_, blank, blank'⟩, fun c mem => first c ?_, last⟩
  · rwa [trim, ← split']
  · rw [split', ← trim, List.head?_append, mem]
    rfl

theorem IsTrimmed.trim_eq {text trimmed : List Char} (spec : IsTrimmed text trimmed) :
    trim text = trimmed := by
  obtain ⟨⟨front, back, rfl, blank, blank'⟩, first, last⟩ := spec
  cases trimmed with
  | nil =>
    have all : ∀ c ∈ front ++ back, isBlank c = true :=
      fun c mem => (List.mem_append.1 mem).elim (blank c) (blank' c)
    have start : trimStart (front ++ back ++ []) = [] := trimStart_append all (by simp)
    rw [List.append_nil] at start
    rw [trim, List.nil_append, start]
    rfl
  | cons c rest =>
    have start : trimStart (front ++ (c :: rest ++ back)) = c :: rest ++ back :=
      trimStart_append blank first
    rw [trim, start, trimEnd_append blank' last]

/-- Every text is trimmed to one text only. -/
theorem isTrimmed_iff {text trimmed : List Char} : IsTrimmed text trimmed ↔ trim text = trimmed :=
  ⟨IsTrimmed.trim_eq, fun same => same ▸ isTrimmed_trim text⟩

/-- White space behind a text is trimmed off with the rest. -/
theorem trim_append {text back : List Char} (blank : ∀ c ∈ back, isBlank c = true) :
    trim (text ++ back) = trim text := by
  obtain ⟨⟨front, more, split, blank', blank''⟩, first, last⟩ := isTrimmed_trim text
  refine IsTrimmed.trim_eq ⟨⟨front, more ++ back, ?_, blank', fun c mem => ?_⟩, first, last⟩
  · conv => lhs; rw [split]
    simp only [List.append_assoc]
  · exact (List.mem_append.1 mem).elim (blank'' c) (blank c)

end BenchLog
