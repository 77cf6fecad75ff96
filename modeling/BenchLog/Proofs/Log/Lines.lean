import BenchLog.Log.Reader

/-!
# A log by its lines

The lines of a log are all of it (`flatten_lines`), and what is left after some of them has the
other lines (`lines_afterLines`). So the state of a reader is a number of lines taken, and reading
a line only looks at the first of those that are left (`readLine_eq`).

A prefix of a log has the first lines of it and perhaps a piece of the next one (`lines_of_prefix`).
-/

namespace BenchLog

namespace Log

/-! ## Lines and bytes -/

theorem flatten_lines (log : Log) : log.lines.flatten = log := by
  induction log with
  | nil => rfl
  | cons byte rest ih =>
    rw [lines]
    split
    · rw [List.flatten_cons, ih, List.singleton_append]
    · cases e : lines rest with
      | nil =>
        rw [lines_eq_nil] at e
        subst e
        rfl
      | cons line more =>
        rw [e, List.flatten_cons] at ih
        simp only [List.flatten_cons, List.cons_append, ih]

theorem lines_splitLine (log : Log) : lines log.splitLine.2 = log.lines.tail := by
  by_cases h : log = []
  · subst h
    rfl
  · rw [lines_of_ne_nil h, List.tail_cons]

/-- What is left of a log after its first lines. -/
def afterLines (count : Nat) (log : Log) : Log := (log.lines.drop count).flatten

/-- The bytes that were taken and those that are left are all bytes. -/
theorem take_append_afterLines (count : Nat) (log : Log) :
    (log.lines.take count).flatten ++ log.afterLines count = log := by
  rw [afterLines, ← List.flatten_append, List.take_append_drop, flatten_lines]

@[simp] theorem afterLines_zero (log : Log) : log.afterLines 0 = log := flatten_lines log

theorem afterLines_one (log : Log) : log.afterLines 1 = log.splitLine.2 := by
  rw [afterLines, List.drop_one, ← lines_splitLine, flatten_lines]

theorem lines_afterLines_one (log : Log) : (log.afterLines 1).lines = log.lines.tail := by
  rw [afterLines_one, lines_splitLine]

theorem afterLines_succ (count : Nat) (log : Log) :
    log.afterLines (count + 1) = (log.afterLines 1).afterLines count := by
  rw [afterLines, afterLines, lines_afterLines_one, ← List.drop_one, List.drop_drop, Nat.add_comm]

@[simp] theorem lines_afterLines (count : Nat) (log : Log) :
    (log.afterLines count).lines = log.lines.drop count := by
  induction count generalizing log with
  | zero => rw [afterLines_zero, List.drop_zero]
  | succ count ih =>
    rw [afterLines_succ, ih, lines_afterLines_one, ← List.drop_one, List.drop_drop, Nat.add_comm]

theorem afterLines_afterLines (first second : Nat) (log : Log) :
    (log.afterLines first).afterLines second = log.afterLines (first + second) := by
  rw [afterLines, lines_afterLines, List.drop_drop, ← afterLines]

theorem afterLines_eq_of_length_le {count : Nat} {log : Log} (h : log.lines.length ≤ count) :
    log.afterLines count = [] := by
  rw [afterLines, List.drop_of_length_le h, List.flatten_nil]

theorem afterLines_min (count : Nat) (log : Log) :
    log.afterLines (min count log.lines.length) = log.afterLines count := by
  by_cases h : count ≤ log.lines.length
  · rw [Nat.min_eq_left h]
  · rw [Nat.min_eq_right (by omega), afterLines_eq_of_length_le (Nat.le_refl _),
      afterLines_eq_of_length_le (by omega)]

/-- The text of the next line, if there is one. -/
def lineText : Option (List UInt8) → Except LogError (Option (List Char))
  | none => .ok none
  | some line =>
    match decode? line with
    | some text => .ok (some text)
    | none => .error (.unreadable .notUtf8)

end Log

/-- Reading a line takes the first line that is left. -/
theorem LogReader.readLine_eq (log : Log) :
    readLine log = ⟨[], Log.lineText log.lines.head?, log.afterLines 1⟩ := by
  unfold readLine Log.takeLine?
  rw [Log.afterLines_one]
  cases log with
  | nil => rfl
  | cons byte rest =>
    rw [Log.lines_of_ne_nil (by simp)]
    simp only [List.isEmpty_cons, Bool.false_eq_true, if_false, List.head?_cons, Log.lineText]
    cases Log.decode? (Log.splitLine (byte :: rest)).1 <;> rfl

namespace Log

/-! ## Prefixes -/

/-- A line with another behind it is complete, so more bytes make lines of their own. -/
theorem lines_splitLine_append {log : Log} (h : log.splitLine.2 ≠ []) (more : Log) :
    lines (log.splitLine.1 ++ more) = log.splitLine.1 :: lines more := by
  induction log with
  | nil => exact absurd rfl h
  | cons byte rest ih =>
    unfold splitLine at h ⊢
    by_cases feed : byte = lineFeed
    · simp only [feed, if_true, List.cons_append, List.nil_append, lines]
    · simp only [feed, if_false] at h
      simp only [feed, if_false, List.cons_append, lines, ih h]

/-- A piece of a line, unless it is nothing, is a line. -/
theorem lines_of_prefix_splitLine {log : Log} {piece : List UInt8}
    (h : piece <+: log.splitLine.1) (some : piece ≠ []) : lines piece = [piece] := by
  induction log generalizing piece with
  | nil => exact absurd (List.prefix_nil.1 h) some
  | cons byte rest ih =>
    obtain ⟨first, piece, rfl⟩ := List.exists_cons_of_ne_nil some
    unfold splitLine at h
    by_cases feed : byte = lineFeed
    · simp only [feed, if_true] at h
      obtain ⟨rfl, nothing⟩ := List.cons_prefix_cons.1 h
      rw [List.prefix_nil.1 nothing]
      rfl
    · simp only [feed, if_false] at h
      obtain ⟨rfl, inner⟩ := List.cons_prefix_cons.1 h
      rw [lines, if_neg feed]
      by_cases empty : piece = []
      · rw [empty]
        rfl
      · rw [ih inner empty]

theorem lines_of_prefix_line {log : Log} {line piece : List UInt8} (mem : line ∈ log.lines)
    (h : piece <+: line) (some : piece ≠ []) : lines piece = [piece] := by
  obtain ⟨count, at_⟩ := List.mem_iff_getElem?.1 mem
  have left : (log.afterLines count).lines.head? = Option.some line := by
    rw [lines_afterLines, List.head?_drop, at_]
  have nonempty : log.afterLines count ≠ [] := by
    intro e
    rw [e] at left
    cases left
  rw [lines_of_ne_nil nonempty, List.head?_cons] at left
  obtain rfl := Option.some.inj left
  exact lines_of_prefix_splitLine h some

/-- Lines of a log and a piece of the next one, put together. -/
theorem lines_take_append {log : Log} {count : Nat} {piece : List UInt8}
    (h : piece <+: log.lines[count]?.getD []) :
    lines ((log.lines.take count).flatten ++ piece) = log.lines.take count ++ lines piece := by
  induction count generalizing log with
  | zero => rw [List.take_zero, List.flatten_nil, List.nil_append, List.nil_append]
  | succ count ih =>
    by_cases empty : log = []
    · subst empty
      rw [lines, List.take_nil, List.flatten_nil, List.nil_append, List.nil_append]
    rw [lines_of_ne_nil empty, List.getElem?_cons_succ] at h
    rw [lines_of_ne_nil empty, List.take_succ_cons, List.flatten_cons, List.append_assoc]
    by_cases last : log.splitLine.2 = []
    · rw [last] at h ⊢
      rw [show piece = [] from List.prefix_nil.1 (by simpa [lines] using h)]
      have whole : log.splitLine.1 = log := by simpa [last] using splitLine_append log
      simp only [lines, List.take_nil, List.flatten_nil, List.append_nil]
      exact (congrArg lines whole).trans (by rw [lines_of_ne_nil empty, last, lines])
    · rw [lines_splitLine_append last, ih h, List.cons_append]

/-- A piece of a line is one line, unless it is nothing. -/
theorem lines_piece {log : Log} {count : Nat} {piece : List UInt8}
    (h : piece <+: log.lines[count]?.getD []) : piece = [] ∨ lines piece = [piece] := by
  by_cases nothing : piece = []
  · exact Or.inl nothing
  · cases there : log.lines[count]? with
    | none =>
      rw [there] at h
      exact Or.inl (List.prefix_nil.1 h)
    | some line =>
      rw [there] at h
      exact Or.inr (lines_of_prefix_line (List.mem_of_getElem? there) h nothing)

/-- A prefix of a log is made of lines of it and a piece of the next one. -/
theorem exists_piece_of_prefix {cut log : Log} (h : cut <+: log) :
    ∃ count piece, piece <+: log.lines[count]?.getD [] ∧
      cut = (log.lines.take count).flatten ++ piece := by
  induction all : log.lines generalizing cut log with
  | nil =>
    rw [lines_eq_nil.1 all] at h
    exact ⟨0, [], List.nil_prefix, List.prefix_nil.1 h⟩
  | cons line more ih =>
    have nonempty : log ≠ [] := fun e => by simp [e, lines] at all
    rw [lines_of_ne_nil nonempty] at all
    obtain ⟨rfl, rest⟩ := List.cons.inj all
    have split := splitLine_append log
    rcases List.prefix_or_prefix_of_prefix h ⟨_, split⟩ with short | ⟨tail, rfl⟩
    · exact ⟨0, cut, short, rfl⟩
    · have inner : tail <+: log.splitLine.2 := by
        rwa [← List.prefix_append_right_inj log.splitLine.1, split]
      obtain ⟨count, piece, within, rfl⟩ := ih inner rest
      exact ⟨count + 1, piece, within, by
        rw [List.take_succ_cons, List.flatten_cons, List.append_assoc]⟩

end Log

end BenchLog
