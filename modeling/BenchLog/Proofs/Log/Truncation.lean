import BenchLog.Proofs.Log.Layout
import BenchLog.Proofs.Recipe.Validity

/-!
# Logs that are cut short

The end of a log ends a line, the strip count of a metric includes the line feed, and the last
separator line may be missing. So a log that is cut inside its last metric line can still be read:
with what is left of that line in place of the line (`Recipe.MisreadCut`). Every other cut is
harmless: reading what is left fails or gives the same series (`read_prefix_iff`).
-/

namespace BenchLog

namespace Recipe

variable {recipe : Recipe}

/-- The number of the last metric line. -/
def lastMetricLine (recipe : Recipe) : Nat :=
  recipe.lineNumber (recipe.blocks - 1) (recipe.metrics.length - 1)

theorem lineNumber_le_lastMetricLine {block column : Nat} (inBlocks : block < recipe.blocks)
    (inBlock : column < recipe.metrics.length) :
    recipe.lineNumber block column ≤ recipe.lastMetricLine := by
  unfold lastMetricLine lineNumber
  have := Nat.mul_le_mul_right (recipe.metrics.length + 1) (Nat.le_sub_one_of_lt inBlocks)
  omega

/-- A separator line stands before the last metric line or is the next one. -/
theorem lineNumber_separator {block : Nat} (inBlocks : block < recipe.blocks)
    (some : 0 < recipe.metrics.length) :
    recipe.lineNumber block recipe.metrics.length < recipe.lastMetricLine ∨
      recipe.lineNumber block recipe.metrics.length = recipe.lastMetricLine + 1 := by
  unfold lastMetricLine lineNumber
  by_cases last : block = recipe.blocks - 1
  · subst last
    omega
  · have := Nat.mul_le_mul_right (recipe.metrics.length + 1)
      (show block + 1 ≤ recipe.blocks - 1 by omega)
    rw [Nat.succ_mul] at this
    omega

theorem eq_last_of_lineNumber_eq {block column : Nat} (inBlocks : block < recipe.blocks)
    (inBlock : column < recipe.metrics.length)
    (h : recipe.lineNumber block column = recipe.lastMetricLine) :
    block = recipe.blocks - 1 ∧ column = recipe.metrics.length - 1 := by
  unfold lastMetricLine lineNumber at h
  by_cases last : block = recipe.blocks - 1
  · subst last
    omega
  · have := Nat.mul_le_mul_right (recipe.metrics.length + 1)
      (show block + 1 ≤ recipe.blocks - 1 by omega)
    rw [Nat.succ_mul] at this
    omega

theorem metrics_ne_nil (valid : recipe.validate = .ok ()) : 0 < recipe.metrics.length :=
  List.length_pos_iff.2 (validate_eq_ok_iff.1 valid).1

theorem blocks_pos (valid : recipe.validate = .ok ()) : leastBlocks ≤ recipe.blocks :=
  (validate_eq_ok_iff.1 valid).2.1

/-- The log is cut inside its last metric line, and what is left of the line is accepted as
another sample. -/
def MisreadCut (recipe : Recipe) (log cut : Log) : Prop :=
  ∃ spec line piece value other, recipe.metrics.getLast? = some spec ∧
    log.lines[recipe.lastMetricLine]? = some line ∧ piece ≠ [] ∧ piece <+: line ∧
    cut = (log.lines.take recipe.lastMetricLine).flatten ++ piece ∧
    spec.ofLine? line = some value ∧ spec.ofLine? piece = some other ∧ other ≠ value

/-- Each series ends with the sample of the last line of its metric. -/
theorem Gives.last {lines : List (List UInt8)} {series : List Series}
    (h : recipe.Gives lines series) (some : 0 < recipe.blocks) {column : Nat} {s : Series}
    (at_ : series[column]? = Option.some s) :
    s.samples.getLast? =
      lines[recipe.lineNumber (recipe.blocks - 1) column]?.bind s.spec.ofLine? := by
  rw [List.getLast?_eq_getElem?, h.length_samples (List.mem_of_getElem? at_),
    h.sample at_ (Nat.sub_one_lt_of_lt some)]

/-- A misread cut has the lines before the last metric line, and the piece that is left of it. -/
theorem MisreadCut.lines {log cut : Log} {line piece : List UInt8}
    (there : log.lines[recipe.lastMetricLine]? = some line) (nonempty : piece ≠ [])
    (within : piece <+: line)
    (split : cut = (log.lines.take recipe.lastMetricLine).flatten ++ piece) :
    cut.lines = log.lines.take recipe.lastMetricLine ++ [piece] := by
  have within' : piece <+: log.lines[recipe.lastMetricLine]?.getD [] := by rwa [there]
  rw [split, Log.lines_take_append within', (Log.lines_piece within').resolve_left nonempty]

theorem getElem?_take_append_singleton {lines : List (List UInt8)} {count : Nat}
    (inside : count < lines.length) (line : List UInt8) :
    (lines.take count ++ [line])[count]? = some line := by
  have size : (lines.take count).length = count := by
    rw [List.length_take]
    omega
  rw [List.getElem?_append_right (by omega), size, Nat.sub_self, List.getElem?_cons_zero]

/-- Where the last metric line is replaced by another that holds a sample, and ends the log, the log
can still be read. -/
theorem Fits.replace_last {lines : List (List UInt8)} {spec : MetricSpec} {piece : List UInt8}
    (fits : recipe.Fits lines) (some : 0 < recipe.metrics.length)
    (metric : recipe.metrics.getLast? = Option.some spec) (sample : (spec.ofLine? piece).isSome)
    (inside : recipe.lastMetricLine < lines.length) :
    recipe.Fits (lines.take recipe.lastMetricLine ++ [piece]) := by
  have size : (lines.take recipe.lastMetricLine).length = recipe.lastMetricLine := by
    rw [List.length_take]
    omega
  refine ⟨fun {block column spec'} inBlocks metric' => ?_, fun {block line'} inBlocks at_ => ?_⟩
  · have inBlock := (List.getElem?_eq_some_iff.1 metric').1
    rcases Nat.lt_or_eq_of_le (lineNumber_le_lastMetricLine inBlocks inBlock) with before | last
    · rw [List.getElem?_append_left (by omega), List.getElem?_take_of_lt before]
      exact fits.sample inBlocks metric'
    · obtain ⟨-, rfl⟩ := eq_last_of_lineNumber_eq inBlocks inBlock last
      rw [List.getLast?_eq_getElem?, metric', Option.some.injEq] at metric
      rw [last, getElem?_take_append_singleton inside, metric]
      exact sample
  · rcases lineNumber_separator inBlocks some with before | last
    · rw [List.getElem?_append_left (by omega), List.getElem?_take_of_lt before] at at_
      exact fits.separator inBlocks at_
    · rw [last, List.getElem?_eq_none (by simp [size])] at at_
      cases at_

/-- A misread cut is read, with another last sample. -/
theorem MisreadCut.read {log cut : Log} (h : recipe.MisreadCut log cut)
    (valid : recipe.validate = .ok ()) {series : List Series}
    (run : (recipe.read log).outcome = .ok series) :
    ∃ series', (recipe.read cut).outcome = .ok series' ∧ series' ≠ series := by
  obtain ⟨spec, line, piece, value, other, metric, there, nonempty, within, split, full, part,
    differ⟩ := h
  have blocks : 0 < recipe.blocks := Nat.lt_of_lt_of_le (by decide) (blocks_pos valid)
  have lines := MisreadCut.lines there nonempty within split
  have inside := (List.getElem?_eq_some_iff.1 there).1
  have fits : recipe.Fits cut.lines := by
    rw [lines]
    exact ((outcome_eq_ok_iff valid).1 ⟨series, run⟩).replace_last (metrics_ne_nil valid) metric
      (by rw [part]; rfl) inside
  obtain ⟨series', run'⟩ := (outcome_eq_ok_iff valid).2 fits
  refine ⟨series', run', ?_⟩
  rintro rfl
  -- Both logs give the series of the last metric, so they have the same last sample.
  have gives := gives_of_outcome_eq_ok valid run
  have gives' := gives_of_outcome_eq_ok valid run'
  rw [List.getLast?_eq_getElem?, ← gives.specs, List.getElem?_map, List.length_map] at metric
  obtain ⟨s, at_, rfl⟩ := Option.map_eq_some_iff.1 metric
  have sample := gives.last blocks at_
  have sample' := gives'.last blocks at_
  have size : series'.length = recipe.metrics.length := by
    simpa using congrArg List.length gives.specs
  have number : recipe.lineNumber (recipe.blocks - 1) (series'.length - 1) =
      recipe.lastMetricLine := by
    rw [size]
    rfl
  rw [sample', number, there, lines, getElem?_take_append_singleton inside, Option.bind_some,
    Option.bind_some, full, part] at sample
  exact differ (Option.some.inj sample)

theorem Fits.exists_line {lines : List (List UInt8)} (fits : recipe.Fits lines)
    {block column : Nat} {spec : MetricSpec} (inBlocks : block < recipe.blocks)
    (metric : recipe.metrics[column]? = some spec) :
    ∃ line value, lines[recipe.lineNumber block column]? = some line ∧
      spec.ofLine? line = some value := by
  obtain ⟨value, sample⟩ := Option.isSome_iff_exists.1 (fits.sample inBlocks metric)
  obtain ⟨line, there, ofLine⟩ := Option.bind_eq_some_iff.1 sample
  exact ⟨line, value, there, ofLine⟩

theorem Fits.lastMetricLine_lt {lines : List (List UInt8)} (fits : recipe.Fits lines)
    (valid : recipe.validate = .ok ()) : recipe.lastMetricLine < lines.length := by
  have blocks := blocks_pos valid
  have metrics := metrics_ne_nil valid
  obtain ⟨line, value, there, -⟩ := fits.exists_line
    (show recipe.blocks - 1 < recipe.blocks by unfold leastBlocks at blocks; omega)
    (List.getElem?_eq_getElem (show recipe.metrics.length - 1 < recipe.metrics.length by omega))
  exact (List.getElem?_eq_some_iff.1 there).1

/-- Of two logs that can be read, one a prefix of the other, the lines of a metric hold the same
sample, unless the prefix is a misread cut. -/
theorem sample_eq_of_prefix {log cut : Log} (valid : recipe.validate = .ok ())
    (pre : cut <+: log) (fits : recipe.Fits log.lines) (fits' : recipe.Fits cut.lines)
    (harmless : ¬ recipe.MisreadCut log cut) (block : Nat) (inBlocks : block < recipe.blocks)
    (column : Nat) (spec : MetricSpec) (metric : recipe.metrics[column]? = some spec) :
    cut.lines[recipe.lineNumber block column]?.bind spec.ofLine? =
      log.lines[recipe.lineNumber block column]?.bind spec.ofLine? := by
  have inBlock := (List.getElem?_eq_some_iff.1 metric).1
  have last := lineNumber_le_lastMetricLine inBlocks inBlock
  obtain ⟨count, piece, within, split⟩ := Log.exists_piece_of_prefix pre
  have lines : cut.lines = log.lines.take count ++ Log.lines piece := by
    rw [split, Log.lines_take_append within]
  have inside := fits.lastMetricLine_lt valid
  by_cases before : recipe.lineNumber block column < count
  · rw [lines, List.getElem?_append_left (by rw [List.length_take]; omega),
      List.getElem?_take_of_lt before]
  -- The cut has a last metric line, so the line that it is cut in is that one.
  have inside' := fits'.lastMetricLine_lt valid
  rw [lines, List.length_append, List.length_take, Nat.min_eq_left (by omega)] at inside'
  have nonempty : piece ≠ [] := by
    rintro rfl
    rw [Log.lines, List.length_nil] at inside'
    omega
  have alone := (Log.lines_piece within).resolve_left nonempty
  rw [alone, List.length_singleton] at inside'
  obtain rfl : recipe.lastMetricLine = count := by omega
  have number : recipe.lineNumber block column = recipe.lastMetricLine := by omega
  obtain ⟨line, value, there, full⟩ := fits.exists_line inBlocks metric
  obtain ⟨line', other, there', part⟩ := fits'.exists_line inBlocks metric
  rw [number] at there there' ⊢
  rw [lines, alone, getElem?_take_append_singleton inside] at there'
  obtain rfl := Option.some.inj there'
  rw [there, lines, alone, getElem?_take_append_singleton inside, Option.bind_some,
    Option.bind_some, full, part, Option.some.injEq]
  apply Decidable.byContradiction
  intro differ
  apply harmless
  rw [there] at within
  obtain ⟨-, rfl⟩ := eq_last_of_lineNumber_eq inBlocks inBlock number
  exact ⟨spec, line, piece, value, other, by rw [List.getLast?_eq_getElem?, metric], there,
    nonempty, within, split, full, part, differ⟩

end Recipe

/-- Reading a log that is cut short fails or gives the same series, unless the cut is inside the
last metric line and what is left of the line holds another sample. -/
theorem read_prefix_iff (recipe : Recipe) (valid : recipe.validate = .ok ()) (log : Log)
    (series : List Series) (run : (recipe.read log).outcome = .ok series) (cut : Log)
    (pre : cut <+: log) :
    ((∃ error, (recipe.read cut).outcome = .error error) ∨
        (recipe.read cut).outcome = .ok series) ↔
      ¬ recipe.MisreadCut log cut := by
  constructor
  · intro harmless misread
    obtain ⟨series', run', differ⟩ := misread.read valid run
    rcases harmless with ⟨error, failed⟩ | same
    · rw [failed] at run'
      cases run'
    · rw [same, Except.ok.injEq] at run'
      exact differ run'.symm
  · intro harmless
    cases run' : (recipe.read cut).outcome with
    | error error => exact Or.inl ⟨error, rfl⟩
    | ok series' =>
      refine Or.inr (congrArg Except.ok ?_)
      have fits := (Recipe.outcome_eq_ok_iff valid).1 ⟨series, run⟩
      have fits' := (Recipe.outcome_eq_ok_iff valid).1 ⟨series', run'⟩
      exact (Recipe.gives_of_outcome_eq_ok valid run').unique
        (Recipe.gives_of_outcome_eq_ok valid run)
        (Recipe.sample_eq_of_prefix valid pre fits fits' harmless)

/-- A log of laps, and the same log cut behind the digits of its last lap. -/
def lapsLog : Log := Log.encode "12 \n\n34 \n\n56 \n\n".toList

def lapsCut : Log := Log.encode "12 \n\n34 \n\n56 ".toList

def lapsSeries (last : Int) : List Series :=
  [⟨⟨"ticks", .integer, 2, .keep⟩, [.ofInt 12, .ofInt 34, .ofInt last]⟩]

theorem lapsSeries_ne : lapsSeries 5 ≠ lapsSeries 56 := by decide +kernel

/-- The digits of the last lap lose their last one, which stands where the unit is expected. -/
theorem read_prefix_iff_laps :
    Recipe.laps.validate = .ok () ∧ (Recipe.laps.read lapsLog).outcome = .ok (lapsSeries 56) ∧
      lapsCut <+: lapsLog ∧ Recipe.laps.MisreadCut lapsLog lapsCut := by
  have pre : lapsCut <+: lapsLog := by decide +kernel
  refine ⟨rfl, rfl, pre, Classical.byContradiction fun harmless => ?_⟩
  have run : (Recipe.laps.read lapsCut).outcome = .ok (lapsSeries 5) := rfl
  rcases (read_prefix_iff Recipe.laps rfl lapsLog (lapsSeries 56) rfl lapsCut pre).2 harmless with
    ⟨error, failed⟩ | same
  · rw [run] at failed
    cases failed
  · rw [run, Except.ok.injEq] at same
    exact lapsSeries_ne same

/-- Not every cut is noticed, although all metric lines end with a line feed. -/
theorem exists_unnoticed_cut :
    ¬ ∀ (recipe : Recipe) (log : Log) (series : List Series), recipe.validate = .ok () →
      (recipe.read log).outcome = .ok series →
      (∀ block < recipe.blocks, ∀ column < recipe.metrics.length, ∀ line,
        log.lines[recipe.lineNumber block column]? = some line →
          line.getLast? = some Log.lineFeed) →
      ∀ cut, cut <+: log → (∃ error, (recipe.read cut).outcome = .error error) ∨
        (recipe.read cut).outcome = .ok series := by
  intro noticed
  have ended : ∀ block < Recipe.laps.blocks, ∀ column < Recipe.laps.metrics.length, ∀ line,
      lapsLog.lines[Recipe.laps.lineNumber block column]? = some line →
        line.getLast? = some Log.lineFeed := by
    intro block inBlocks column inBlock line there
    obtain rfl : column = 0 := Nat.lt_one_iff.1 inBlock
    match block, inBlocks with
    | 0, _ | 1, _ | 2, _ => cases there; rfl
  have run : (Recipe.laps.read lapsCut).outcome = .ok (lapsSeries 5) := rfl
  rcases noticed Recipe.laps lapsLog (lapsSeries 56) rfl rfl ended lapsCut (by decide +kernel) with
    ⟨error, failed⟩ | same
  · rw [run] at failed
    cases failed
  · rw [run, Except.ok.injEq] at same
    exact lapsSeries_ne same

end BenchLog
