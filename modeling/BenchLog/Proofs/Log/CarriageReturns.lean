import BenchLog.Proofs.Log.Writing

/-!
# Logs with carriage returns

`Log.withReturns` puts a carriage return before each line feed of a log. The lines stay apart
(`Log.lines_withReturns`), and it does not matter for whether a line is text. A metric line gets
longer by one character, so that one character behind its text is left when the last ones are
dropped. If that is blank, no separator rule touches it and it is trimmed off
(`MetricSpec.clean_return`), so the log is read as before (`read_withReturns`).
-/

namespace BenchLog

namespace Log

def carriageReturn : UInt8 := 13

/-- The log with a carriage return before each line feed. -/
def withReturns (log : Log) : Log :=
  log.flatMap fun byte => if byte = lineFeed then [carriageReturn, lineFeed] else [byte]

theorem withReturns_append (log more : Log) :
    (log ++ more).withReturns = log.withReturns ++ more.withReturns := List.flatMap_append

theorem withReturns_cons {byte : UInt8} (other : byte ≠ lineFeed) (log : Log) :
    withReturns (byte :: log) = byte :: log.withReturns := by
  rw [withReturns, List.flatMap_cons, if_neg other]
  rfl

theorem withReturns_of_notMem {bytes : List UInt8} (plain : lineFeed ∉ bytes) :
    withReturns bytes = bytes := by
  induction bytes with
  | nil => rfl
  | cons byte bytes ih =>
    obtain ⟨other, plain⟩ := not_or.1 (fun h => plain (List.mem_cons.2 h))
    rw [withReturns_cons (Ne.symm other), ih plain]

/-- The lines of a log stay apart. -/
theorem lines_withReturns (log : Log) : log.withReturns.lines = log.lines.map withReturns := by
  induction log with
  | nil => rfl
  | cons byte log ih =>
    by_cases feed : byte = lineFeed
    · subst feed
      have line : IsLine [carriageReturn, lineFeed] := ⟨[carriageReturn], by decide, rfl⟩
      rw [lines, if_pos rfl, List.map_cons, ← ih]
      exact lines_append line (withReturns log)
    · rw [withReturns_cons feed, lines, lines, if_neg feed, if_neg feed, ih]
      cases lines log with
      | nil =>
        rw [List.map_nil, List.map_singleton, withReturns_cons feed]
        rfl
      | cons line more =>
        rw [List.map_cons, List.map_cons, withReturns_cons feed]

/-- A line is complete, or the last one and without a line feed. -/
theorem isLine_or_notMem_of_mem_lines {log : Log} {line : List UInt8} (mem : line ∈ log.lines) :
    IsLine line ∨ lineFeed ∉ line := by
  induction log generalizing line with
  | nil => cases mem
  | cons byte log ih =>
    rw [lines] at mem
    by_cases feed : byte = lineFeed
    · rw [if_pos feed] at mem
      rcases List.mem_cons.1 mem with rfl | mem
      · exact Or.inl ⟨[], List.not_mem_nil, by rw [feed]; rfl⟩
      · exact ih mem
    · rw [if_neg feed] at mem
      cases rest : lines log with
      | nil =>
        rw [rest] at mem
        obtain rfl := List.mem_singleton.1 mem
        exact Or.inr fun mem => feed (List.mem_singleton.1 mem).symm
      | cons first more =>
        rw [rest] at ih mem
        rcases List.mem_cons.1 mem with rfl | mem
        · rcases ih List.mem_cons_self with ⟨text, plain, rfl⟩ | plain
          · refine Or.inl ⟨byte :: text, fun mem => ?_, rfl⟩
            exact (List.mem_cons.1 mem).elim (fun same => feed same.symm) plain
          · refine Or.inr fun mem => ?_
            exact (List.mem_cons.1 mem).elim (fun same => feed same.symm) plain
        · exact ih (List.mem_cons_of_mem _ mem)

theorem withReturns_isLine {text : List UInt8} (plain : lineFeed ∉ text) :
    withReturns (text ++ [lineFeed]) = text ++ [carriageReturn] ++ [lineFeed] := by
  rw [withReturns_append, withReturns_of_notMem plain, List.append_assoc]
  rfl

/-- A carriage return does not matter for whether a line is text. -/
theorem isSome_decode?_withReturns {log : Log} {line : List UInt8} (mem : line ∈ log.lines) :
    (decode? (withReturns line)).isSome ↔ (decode? line).isSome := by
  rcases isLine_or_notMem_of_mem_lines mem with ⟨text, plain, rfl⟩ | plain
  · have feed : [lineFeed] = encode ['\n'] := by decide
    have return_ : [carriageReturn] = encode ['\r'] := by decide
    rw [withReturns_isLine plain, feed, return_, isSome_decode?_append (by decide),
      isSome_decode?_append (by decide), isSome_decode?_append (by decide)]
  · rw [withReturns_of_notMem plain]

end Log

/-! ## Lines of a metric -/

/-- No rule touches white space. -/
theorem SeparatorRule.apply_of_blank (rule : SeparatorRule) {text : List Char}
    (blank : ∀ c ∈ text, isBlank c = true) : rule.apply text = text := by
  cases rule with
  | keep => rfl
  | removeDots =>
    refine List.filter_eq_self.2 fun c mem => decide_eq_true ?_
    rintro rfl
    cases blank '.' mem
  | commaToDot =>
    refine (List.map_congr_left fun c mem => if_neg ?_).trans (List.map_id _)
    rintro rfl
    cases blank ',' mem

namespace MetricSpec

/-- Behind a text the line has as many characters as the recipe drops, at least a line feed, and the
first of them is blank. -/
def IsFilled (spec : MetricSpec) (line : List UInt8) : Prop :=
  ∃ text fill, line = Log.encode (text ++ (fill ++ ['\n'])) ∧ '\n' ∉ text ∧ '\n' ∉ fill ∧
    (fill ++ ['\n']).length = max spec.strip 1 ∧ ∀ c ∈ (fill ++ ['\n']).head?, isBlank c = true

variable {spec : MetricSpec}

/-- White space before what is dropped makes no difference. -/
theorem clean_append (text : List Char) {back dropped : List Char}
    (blank : ∀ c ∈ back, isBlank c = true) (length : dropped.length = spec.strip) :
    spec.clean (text ++ back ++ dropped) = trim (spec.separator.apply text) := by
  rw [clean, ← length, stripTrailing_append, SeparatorRule.apply_append,
    spec.separator.apply_of_blank blank, trim_append blank]

/-- With a carriage return a line has the same text. -/
theorem clean_return (text : List Char) {fill : List Char}
    (length : (fill ++ ['\n']).length = max spec.strip 1)
    (blank : ∀ c ∈ (fill ++ ['\n']).head?, isBlank c = true) :
    spec.clean (text ++ (fill ++ ['\r', '\n'])) = spec.clean (text ++ (fill ++ ['\n'])) := by
  rw [List.length_append, List.length_singleton] at length
  rcases Nat.eq_zero_or_pos spec.strip with none | some
  · -- nothing is dropped, and all that stands behind the text is trimmed off
    obtain rfl := List.length_eq_zero_iff.1 (show fill.length = 0 by omega)
    have trimmed {back : List Char} (blank : ∀ c ∈ back, isBlank c = true) :
        spec.clean (text ++ back) = trim (spec.separator.apply text) := by
      rw [← List.append_nil (text ++ back)]
      exact clean_append text blank none.symm
    rw [List.nil_append, List.nil_append, trimmed (List.all_eq_true.1 (by decide)),
      trimmed (List.all_eq_true.1 (by decide))]
  · -- the first of the blank characters is left over
    have whole : (fill ++ ['\n']).length = spec.strip := by
      rw [List.length_append, List.length_singleton]
      omega
    obtain ⟨c, rest, left, first⟩ : ∃ c rest, fill ++ ['\r', '\n'] = [c] ++ rest ∧
        isBlank c = true := by
      cases fill with
      | nil => exact ⟨'\r', ['\n'], rfl, by decide⟩
      | cons c rest => exact ⟨c, rest ++ ['\r', '\n'], rfl, blank c rfl⟩
    have dropped : rest.length = spec.strip := by
      have same := congrArg List.length left
      simp only [List.length_append, List.length_cons, List.length_nil] at same whole
      omega
    have none : ∀ d ∈ ([] : List Char), isBlank d = true := List.forall_mem_nil _
    have short := clean_append text none whole
    rw [List.append_nil] at short
    rw [left, short, ← List.append_assoc]
    exact clean_append text (fun d mem => List.mem_singleton.1 mem ▸ first) dropped

/-- A carriage return makes no difference to what a line holds. -/
theorem IsFilled.withReturns {line : List UInt8} (filled : spec.IsFilled line) :
    ∃ text text', Log.decode? line = some text ∧ Log.decode? (Log.withReturns line) = some text' ∧
      spec.clean text' = spec.clean text := by
  obtain ⟨text, fill, rfl, plain, plain', length, blank⟩ := filled
  refine ⟨_, text ++ (fill ++ ['\r', '\n']), Log.decode?_encode _, ?_,
    clean_return text length blank⟩
  have before := Log.lineFeed_notMem_encode fun mem => (List.mem_append.1 mem).elim plain plain'
  rw [Log.decode?_eq_some_iff, ← List.append_assoc, Log.encode_append,
    show Log.encode ['\n'] = [Log.lineFeed] by decide, Log.withReturns_isLine before,
    ← List.append_assoc, Log.encode_append (text ++ fill), List.append_assoc]
  rfl

end MetricSpec

/-! ## Logs -/

/-- Two logs that are the same at each slot are read the same. -/
theorem Recipe.read_eq_of_sameAt {recipe : Recipe} (valid : recipe.validate = .ok ())
    {log log' : Log} (same : SameAt recipe.slots log.lines log'.lines) :
    (recipe.read log').outcome = (recipe.read log).outcome ∧
      (recipe.read log').events = (recipe.read log).events := by
  rcases sound_or_exists_firstFault recipe.slots log.lines with sound | ⟨k, error, fault⟩
  · obtain ⟨series, gives, run⟩ := (reads valid).succeeds sound
    obtain ⟨series', gives', run'⟩ := (reads valid).succeeds (same.sound sound)
    rw [run, run', same.trace_eq]
    refine ⟨congrArg Except.ok (gives'.unique gives fun block inBlocks column spec metric => ?_), rfl⟩
    have inBlock := Nat.le_of_lt (List.getElem?_eq_some_iff.1 metric).1
    have told := congrArg List.head? (same _ _ (getElem?_slots inBlocks inBlock)).2
    rw [Slot.ofColumn, metric] at told
    simp only [Slot.events, Option.head?_toList] at told
    exact Option.map_injective (fun _ _ h => (Event.sampleRead.inj h).2.2) told
  · rw [(reads valid).fails fault, (reads valid).fails (same.firstFault fault),
      (same.take k).trace_eq]
    exact ⟨rfl, rfl⟩

namespace Slot

variable {line line' : List UInt8}

/-- At the slot of a metric all that matters is the text of the line. -/
theorem same_of_clean {block : Nat} {spec : MetricSpec} {text text' : List Char}
    (decoded : Log.decode? line = some text) (decoded' : Log.decode? line' = some text')
    (clean : spec.clean text' = spec.clean text) :
    (sample block spec).fault? (some line') = (sample block spec).fault? (some line) ∧
      (sample block spec).events (some line') = (sample block spec).events (some line) := by
  have extract : spec.extract? text' = spec.extract? text :=
    congrArg (MetricSpec.readAs? spec.kind) clean
  constructor
  · simp only [fault?, decoded, decoded', MetricSpec.sample, extract, clean]
  · simp only [events, Option.bind_some, MetricSpec.ofLine?, decoded, decoded', extract]

/-- At the slot of a separator all that matters is whether the line is text. -/
theorem same_of_isSome {block total : Nat}
    (text : (Log.decode? line').isSome ↔ (Log.decode? line).isSome) :
    (separator block total).fault? (some line') = (separator block total).fault? (some line) ∧
      (separator block total).events (some line') = (separator block total).events (some line) := by
  refine ⟨?_, rfl⟩
  cases decoded : Log.decode? line <;> cases decoded' : Log.decode? line' <;>
    simp_all [fault?]

end Slot

/-- Carriage returns make no difference, where each metric line has behind its text as many characters
as the recipe drops, at least a line feed, and the first of them is blank: the series are the same, or
the failure, and so are the events. -/
theorem read_withReturns (recipe : Recipe) (valid : recipe.validate = .ok ()) (log : Log)
    (filled : ∀ block < recipe.blocks, ∀ (column : Nat) (spec : MetricSpec) (line : List UInt8),
      recipe.metrics[column]? = some spec →
      log.lines[recipe.lineNumber block column]? = some line → spec.IsFilled line) :
    (recipe.read log.withReturns).outcome = (recipe.read log).outcome ∧
      (recipe.read log.withReturns).events = (recipe.read log).events := by
  refine Recipe.read_eq_of_sameAt valid fun k slot at_ => ?_
  rw [Log.lines_withReturns, List.getElem?_map]
  cases there : log.lines[k]? with
  | none => exact ⟨rfl, rfl⟩
  | some line =>
    obtain ⟨block, inBlocks, ⟨column, spec, metric, rfl, rfl⟩ | ⟨rfl, rfl⟩⟩ :=
      Recipe.cases_of_slot at_
    · obtain ⟨text, text', decoded, decoded', clean⟩ :=
        (filled block inBlocks column spec line metric there).withReturns
      exact Slot.same_of_clean decoded decoded' clean
    · exact Slot.same_of_isSome (Log.isSome_decode?_withReturns (List.mem_of_getElem? there))

/-- A failure tells the same text with carriage returns as without them. -/
theorem read_withReturns_laps :
    let log : Log := Log.encode "12 \n--\nfast \n".toList
    Recipe.laps.validate = .ok () ∧
      (∀ block < Recipe.laps.blocks, ∀ (column : Nat) (spec : MetricSpec) (line : List UInt8),
        Recipe.laps.metrics[column]? = some spec →
        log.lines[Recipe.laps.lineNumber block column]? = some line → spec.IsFilled line) ∧
      log.withReturns = Log.encode "12 \r\n--\r\nfast \r\n".toList ∧
      (Recipe.laps.read log.withReturns).outcome =
        .error (.notNumber 1 "ticks" .integer "fast".toList) := by
  intro log
  have filled : ∀ block < Recipe.laps.blocks, ∀ (column : Nat) (spec : MetricSpec)
      (line : List UInt8), Recipe.laps.metrics[column]? = some spec →
      log.lines[Recipe.laps.lineNumber block column]? = some line → spec.IsFilled line := by
    intro block inBlocks column spec line metric there
    cases column with
    | succ column => cases metric
    | zero =>
      cases metric
      obtain rfl | rfl | rfl : block = 0 ∨ block = 1 ∨ block = 2 := by
        have : block < 3 := inBlocks
        omega
      · cases there
        exact ⟨"12".toList, [' '], by decide, by decide, by decide, by decide, by simp; decide⟩
      · cases there
        exact ⟨"fast".toList, [' '], by decide, by decide, by decide, by decide, by simp; decide⟩
      · cases there
  refine ⟨rfl, filled, by decide, ?_⟩
  rw [(read_withReturns Recipe.laps rfl log filled).1]
  rfl

end BenchLog
