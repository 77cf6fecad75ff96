import BenchLog.Proofs.Log.Readers
import BenchLog.Proofs.Recipe.Validity

/-!
# The layout of a log

Line number `recipe.lineNumber block column` of a log is the line of the metric in that column, and
behind the metrics that of the separator. Reading the blocks of a recipe succeeds exactly if every
metric line is there and holds a sample and no separator line that is there fails to be text, and
then series and samples are those of the lines by number (`read_layout`). So nothing else in a log
matters, in particular no text of a separator line and no byte behind the last block.

A log that can be read has a line for each block. So a log with fewer lines than a vector has room
for samples is parsed exactly if it is read, with the same series
(`Recipe.parse_eq_ok_iff_of_lines`).
-/

namespace BenchLog

namespace Recipe

variable (recipe : Recipe)

/-- The number of the line in a column of a block. -/
def lineNumber (block column : Nat) : Nat := block * (recipe.metrics.length + 1) + column

/-- How many lines a log has that ends with its last separator line. -/
def lineCount : Nat := recipe.blocks * (recipe.metrics.length + 1)

/-- The slots of all blocks. -/
def slots : List Slot := slotsOfBlocks recipe.metrics recipe.blocks 0 recipe.blocks

theorem length_slots : recipe.slots.length = recipe.lineCount := length_slotsOfBlocks ..

variable {recipe}

theorem getElem?_slots {block column : Nat} (inBlocks : block < recipe.blocks)
    (inBlock : column ≤ recipe.metrics.length) :
    recipe.slots[recipe.lineNumber block column]? =
      some (Slot.ofColumn recipe.metrics recipe.blocks block column) := by
  rw [slots, lineNumber, getElem?_slotsOfBlocks _ _ _ _ inBlocks inBlock, Nat.zero_add]

/-- A line that is read has a block and a column. -/
theorem exists_lineNumber {k : Nat} (h : k < recipe.lineCount) :
    ∃ block column, block < recipe.blocks ∧ column ≤ recipe.metrics.length ∧
      k = recipe.lineNumber block column ∧ k / (recipe.metrics.length + 1) = block ∧
      k % (recipe.metrics.length + 1) = column := by
  have size : 0 < recipe.metrics.length + 1 := Nat.succ_pos _
  refine ⟨_, _, ?_, Nat.le_of_lt_succ (Nat.mod_lt k size), ?_, rfl, rfl⟩
  · exact (Nat.div_lt_iff_lt_mul size).2 h
  · rw [lineNumber, Nat.mul_comm, Nat.div_add_mod]

theorem lt_lineCount_of_slot {k : Nat} {slot : Slot} (at_ : recipe.slots[k]? = some slot) :
    k < recipe.lineCount := by
  rw [← length_slots]
  exact (List.getElem?_eq_some_iff.1 at_).1

/-- A slot is that of a metric or that of a separator, and stands at its line. -/
theorem cases_of_slot {k : Nat} {slot : Slot} (at_ : recipe.slots[k]? = some slot) :
    ∃ block < recipe.blocks,
      (∃ column spec, recipe.metrics[column]? = some spec ∧ k = recipe.lineNumber block column ∧
        slot = .sample block spec) ∨
      k = recipe.lineNumber block recipe.metrics.length ∧
        slot = .separator block recipe.blocks := by
  obtain ⟨block, column, inBlocks, inBlock, rfl, -, -⟩ :=
    exists_lineNumber (lt_lineCount_of_slot at_)
  rw [getElem?_slots inBlocks inBlock, Option.some.injEq, Slot.ofColumn] at at_
  refine ⟨block, inBlocks, ?_⟩
  cases metric : recipe.metrics[column]? with
  | some spec =>
    rw [metric] at at_
    exact Or.inl ⟨column, spec, metric, rfl, at_.symm⟩
  | none =>
    rw [metric] at at_
    have last := Nat.le_antisymm inBlock (List.getElem?_eq_none_iff.1 metric)
    exact Or.inr ⟨by rw [last], at_.symm⟩

/-- All lines of the log are as the recipe wants them. -/
structure Fits (recipe : Recipe) (lines : List (List UInt8)) : Prop where
  /-- A metric line holds a sample. -/
  sample {block column : Nat} {spec : MetricSpec} : block < recipe.blocks →
    recipe.metrics[column]? = some spec →
    (lines[recipe.lineNumber block column]?.bind spec.ofLine?).isSome
  /-- A separator line is text, if it is there. -/
  separator {block : Nat} {line : List UInt8} : block < recipe.blocks →
    lines[recipe.lineNumber block recipe.metrics.length]? = some line → (Log.decode? line).isSome

theorem sound_slots_iff {lines : List (List UInt8)} :
    Sound recipe.slots lines ↔ recipe.Fits lines := by
  constructor
  · intro sound
    refine ⟨fun {block column spec} inBlocks at_ => ?_, fun {block line} inBlocks => ?_⟩
    · have inBlock : column < recipe.metrics.length := (List.getElem?_eq_some_iff.1 at_).1
      have fault := sound _ _ (getElem?_slots inBlocks (Nat.le_of_lt inBlock))
      rw [Slot.ofColumn, at_] at fault
      exact Slot.fault?_sample_eq_none_iff.1 fault
    · have fault := sound _ _ (getElem?_slots inBlocks (Nat.le_refl _))
      rw [Slot.ofColumn, List.getElem?_eq_none (Nat.le_refl _)] at fault
      exact Slot.fault?_separator_eq_none_iff.1 fault line
  · intro fits k slot at_
    obtain ⟨block, inBlocks, ⟨column, spec, metric, rfl, rfl⟩ | ⟨rfl, rfl⟩⟩ := cases_of_slot at_
    · exact Slot.fault?_sample_eq_none_iff.2 (fits.sample inBlocks metric)
    · exact Slot.fault?_separator_eq_none_iff.2 fun line => fits.separator inBlocks

/-! ## Series -/

/-- There is a series for each metric, with the samples of its lines, block by block. -/
structure Gives (recipe : Recipe) (lines : List (List UInt8)) (series : List Series) : Prop where
  specs : series.map Series.spec = recipe.metrics
  samples {column : Nat} {s : Series} : series[column]? = some s →
    s.samples.map some = (List.range recipe.blocks).map fun block =>
      lines[recipe.lineNumber block column]?.bind s.spec.ofLine?

end Recipe

theorem map_some_filterMap {α β : Type} (rows : List α) (f : α → Option β) (g : Nat → Option β)
    (h : ∀ (b : Nat) (row : α), rows[b]? = some row → ∃ value, f row = some value ∧
      g b = some value) :
    (rows.filterMap f).map some = (List.range rows.length).map g := by
  induction rows generalizing g with
  | nil => rfl
  | cons row rows ih =>
    obtain ⟨value, first, first'⟩ := h 0 row rfl
    rw [List.filterMap_cons_some first, List.map_cons, List.length_cons, List.range_succ_eq_map,
      List.map_cons, List.map_map, first',
      ih (g ∘ Nat.succ) fun b row' at_ => h (b + 1) row' (by simpa using at_)]

theorem RowFits.getElem? {specs : List MetricSpec} {lines : List (List UInt8)}
    {row : List Binary64} (h : RowFits specs lines row) {column : Nat} {spec : MetricSpec}
    (at_ : specs[column]? = some spec) :
    ∃ value, row[column]? = some value ∧ lines[column]?.bind spec.ofLine? = some value := by
  have same := congrArg (·[column]?) h
  simp only [List.getElem?_map, List.getElem?_mapIdx, at_, Option.map_some] at same
  obtain ⟨value, inRow, inLines⟩ := Option.map_eq_some_iff.1 same
  exact ⟨value, inRow, inLines.symm⟩

theorem map_spec_columns (specs : List MetricSpec) (rows : List (List Binary64)) :
    (columns specs rows).map Series.spec = specs := by
  apply List.ext_getElem?
  intro column
  rw [columns, List.getElem?_map, List.getElem?_mapIdx, Option.map_map]
  exact Option.map_id_apply

theorem gives_columns {recipe : Recipe} {lines : List (List UInt8)} {rows : List (List Binary64)}
    (h : RowsFit recipe.metrics recipe.blocks lines rows) :
    recipe.Gives lines (columns recipe.metrics rows) where
  specs := map_spec_columns recipe.metrics rows
  samples {column s} at_ := by
    obtain ⟨size, fits⟩ := h
    rw [columns, List.getElem?_mapIdx] at at_
    obtain ⟨spec, metric, rfl⟩ := Option.map_eq_some_iff.1 at_
    dsimp only
    rw [← size]
    apply map_some_filterMap rows
    intro b row inRows
    obtain ⟨value, inRow, inLines⟩ := (fits b row inRows).getElem? metric
    rw [List.getElem?_drop] at inLines
    exact ⟨value, inRow, inLines⟩

namespace Recipe

variable {recipe : Recipe}

/-- The reader of a recipe goes through its slots. -/
theorem reads (valid : recipe.validate = .ok ()) :
    Reads recipe.slots (recipe.Gives) recipe.read := by
  have unfolded : recipe.read = (LogReader.readBlocks recipe.metrics recipe.blocks 0
      recipe.blocks).mapValue (columns recipe.metrics) := by
    unfold Recipe.read
    rw [valid]
    rfl
  rw [unfolded]
  apply ((reads_readBlocks _ _ _ _).mapValue _).imp
  intro lines series _ fit
  obtain ⟨rows, fits, rfl⟩ := fit
  exact gives_columns fits

theorem outcome_eq_ok_iff (valid : recipe.validate = .ok ()) {log : Log} :
    (∃ series, (recipe.read log).outcome = .ok series) ↔ recipe.Fits log.lines := by
  rw [← sound_slots_iff]
  constructor
  · rintro ⟨series, run⟩
    rcases sound_or_exists_firstFault recipe.slots log.lines with sound | ⟨k, error, fault⟩
    · exact sound
    · rw [(reads valid).fails fault] at run
      cases run
  · intro sound
    obtain ⟨series, -, run⟩ := (reads valid).succeeds sound
    exact ⟨series, by rw [run]⟩

theorem validate_of_read {log : Log} {series : List Series}
    (run : (recipe.read log).outcome = .ok series) : recipe.validate = .ok () := by
  cases valid : recipe.validate with
  | ok => rfl
  | error fault =>
    rw [read, valid] at run
    cases run

theorem blocks_le_length_lines {log : Log} {series : List Series}
    (run : (recipe.read log).outcome = .ok series) : recipe.blocks ≤ log.lines.length := by
  have valid := validate_of_read run
  have fits := (outcome_eq_ok_iff valid).1 ⟨series, run⟩
  obtain ⟨some, enough, -⟩ := validate_eq_ok_iff.1 valid
  have positive : 0 < recipe.blocks := Nat.lt_of_lt_of_le (by decide) enough
  have last := fits.sample (Nat.sub_lt positive Nat.one_pos)
    (List.getElem?_eq_getElem (List.length_pos_iff.2 some))
  obtain ⟨value, sample⟩ := Option.isSome_iff_exists.1 last
  obtain ⟨line, there, -⟩ := Option.bind_eq_some_iff.1 sample
  have inside := (List.getElem?_eq_some_iff.1 there).1
  have before : recipe.blocks - 1 ≤ recipe.lineNumber (recipe.blocks - 1) 0 :=
    Nat.le_mul_of_pos_right _ (Nat.succ_pos recipe.metrics.length)
  omega

/-- With room for a sample of each line of the log there is room for the samples of a recipe that
the log can be read with. -/
theorem parse_eq_ok_iff_of_lines {log : Log} (room : HasRoom log.lines.length)
    {series : List Series} :
    (recipe.parse log).outcome = .ok series ↔ (recipe.read log).outcome = .ok series := by
  rw [parse_eq_ok_iff, and_iff_right_iff_imp]
  exact fun run => room.mono (blocks_le_length_lines run)

/-- A recipe that can be used fails to read a log only because of a line. -/
theorem isOfLine_of_outcome_eq_error (valid : recipe.validate = .ok ()) {log : Log} {error : LogError}
    (failed : (recipe.read log).outcome = .error error) : error.isOfLine = true := by
  rcases sound_or_exists_firstFault recipe.slots log.lines with sound | ⟨k, error', fault⟩
  · obtain ⟨series, -, run⟩ := (reads valid).succeeds sound
    rw [run] at failed
    cases failed
  · rw [(reads valid).fails fault] at failed
    cases failed
    obtain ⟨⟨slot, -, wrong⟩, -⟩ := fault
    exact Slot.isOfLine_of_fault? wrong

theorem gives_of_outcome_eq_ok (valid : recipe.validate = .ok ()) {log : Log}
    {series : List Series} (run : (recipe.read log).outcome = .ok series) :
    recipe.Gives log.lines series := by
  have sound := sound_slots_iff.2 ((outcome_eq_ok_iff valid).1 ⟨series, run⟩)
  obtain ⟨series', gives, run'⟩ := (reads valid).succeeds sound
  rw [run', Except.ok.injEq] at run
  rwa [← run]

section Gives

variable {lines : List (List UInt8)} {series : List Series} (h : recipe.Gives lines series)

include h

theorem Gives.length_samples {s : Series} (member : s ∈ series) :
    s.samples.length = recipe.blocks := by
  obtain ⟨column, at_⟩ := List.mem_iff_getElem?.1 member
  simpa using congrArg List.length (h.samples at_)

theorem Gives.metric {column : Nat} {s : Series} (at_ : series[column]? = some s) :
    recipe.metrics[column]? = some s.spec := by
  rw [← h.specs, List.getElem?_map, at_]
  rfl

theorem Gives.sample {column : Nat} {s : Series} (at_ : series[column]? = some s) {block : Nat}
    (inBlocks : block < recipe.blocks) :
    s.samples[block]? = lines[recipe.lineNumber block column]?.bind s.spec.ofLine? := by
  have same := congrArg (·[block]?) (h.samples at_)
  simp only [List.getElem?_map, List.getElem?_range inBlocks, Option.map_some] at same
  obtain ⟨value, inSeries, inLines⟩ := Option.map_eq_some_iff.1 same
  rw [inSeries, inLines]

end Gives

/-- Series are determined by the samples of the metric lines. -/
theorem Gives.unique {lines lines' : List (List UInt8)} {series series' : List Series}
    (h : recipe.Gives lines series) (h' : recipe.Gives lines' series')
    (same : ∀ block < recipe.blocks, ∀ (column : Nat) (spec : MetricSpec),
      recipe.metrics[column]? = some spec →
      lines[recipe.lineNumber block column]?.bind spec.ofLine? =
        lines'[recipe.lineNumber block column]?.bind spec.ofLine?) :
    series = series' := by
  have size : series.length = series'.length := by
    simpa using congrArg List.length (h.specs.trans h'.specs.symm)
  apply List.ext_getElem size
  intro column inside inside'
  have spec := congrArg (·[column]?) h.specs
  have spec' := congrArg (·[column]?) h'.specs
  simp only [List.getElem?_map, List.getElem?_eq_getElem inside,
    List.getElem?_eq_getElem inside', Option.map_some] at spec spec'
  have specs : series[column].spec = series'[column].spec :=
    Option.some.inj (spec.trans spec'.symm)
  have samples : series[column].samples.map some = series'[column].samples.map some := by
    rw [h.samples (List.getElem?_eq_getElem inside), h'.samples (List.getElem?_eq_getElem inside'),
      ← specs]
    apply List.map_congr_left
    intro block inBlocks
    exact same block (List.mem_range.1 inBlocks) column _ spec.symm
  generalize series[column] = s at *
  generalize series'[column] = s' at *
  obtain ⟨spec₁, samples₁⟩ := s
  obtain ⟨spec₂, samples₂⟩ := s'
  dsimp only at specs samples
  rw [specs, List.map_inj_right (fun _ _ => Option.some.inj) |>.1 samples]

/-- A log whose metric lines hold the same samples has the same series. -/
theorem outcome_eq_ok_of_same (valid : recipe.validate = .ok ()) {log log' : Log}
    {series : List Series} (run : (recipe.read log).outcome = .ok series)
    (same : ∀ block < recipe.blocks, ∀ (column : Nat) (spec : MetricSpec),
      recipe.metrics[column]? = some spec →
      log'.lines[recipe.lineNumber block column]?.bind spec.ofLine? =
        log.lines[recipe.lineNumber block column]?.bind spec.ofLine?)
    (text : ∀ block < recipe.blocks, ∀ line,
      log'.lines[recipe.lineNumber block recipe.metrics.length]? = some line →
        (Log.decode? line).isSome) :
    (recipe.read log').outcome = .ok series := by
  have fits := (outcome_eq_ok_iff valid).1 ⟨series, run⟩
  have fits' : recipe.Fits log'.lines := by
    refine ⟨fun {block column spec} inBlocks metric => ?_, fun {block line} inBlocks => ?_⟩
    · rw [same block inBlocks column spec metric]
      exact fits.sample inBlocks metric
    · exact text block inBlocks line
  obtain ⟨series', run'⟩ := (outcome_eq_ok_iff valid).2 fits'
  rw [run', (gives_of_outcome_eq_ok valid run').unique (gives_of_outcome_eq_ok valid run) same]

end Recipe

/-! ## The layout theorem -/

/-- The text of a line, if there is one and it is text. -/
def Log.textAt? (log : Log) (k : Nat) : Option (List Char) := log.lines[k]?.bind decode?

theorem MetricSpec.sample_eq_ok_iff {spec : MetricSpec} {block : Nat} {text : List Char}
    {value : Binary64} : spec.sample block text = .ok value ↔ spec.extract? text = some value := by
  unfold MetricSpec.sample
  cases spec.extract? text <;> simp

/-- A line has a sample if it is there, is text and the text is accepted. -/
theorem bind_ofLine?_eq_some_iff {spec : MetricSpec} {log : Log} {k : Nat} (block : Nat)
    {value : Binary64} :
    log.lines[k]?.bind spec.ofLine? = some value ↔
      ∃ text, log.textAt? k = some text ∧ spec.sample block text = .ok value := by
  have split : log.lines[k]?.bind spec.ofLine? = (log.textAt? k).bind spec.extract? := by
    rw [Log.textAt?, Option.bind_assoc]
    rfl
  rw [split, Option.bind_eq_some_iff]
  simp only [MetricSpec.sample_eq_ok_iff]

/-- Reading succeeds exactly if each metric line is there, is text and holds a sample, and each
separator line that is there is text. Then there is a series for each metric, with the samples of
its lines from block to block, and another log with the same metric lines gives the same series. A
log is parsed exactly if it is read, unless it has more lines than there is room for samples. -/
theorem read_layout (recipe : Recipe) (valid : recipe.validate = .ok ()) (log : Log) :
    ((∃ series, (recipe.read log).outcome = .ok series) ↔
      ∀ block < recipe.blocks,
        (∀ (column : Nat) (spec : MetricSpec), recipe.metrics[column]? = some spec →
          ∃ text value, log.textAt? (recipe.lineNumber block column) = some text ∧
            spec.sample block text = .ok value) ∧
        ∀ line, log.lines[recipe.lineNumber block recipe.metrics.length]? = some line →
          (Log.decode? line).isSome) ∧
    (∀ series, (recipe.read log).outcome = .ok series →
      series.map Series.spec = recipe.metrics ∧
      ∀ (column : Nat) (s : Series), series[column]? = some s →
        s.samples.length = recipe.blocks ∧
        ∀ block < recipe.blocks, ∃ text value,
          log.textAt? (recipe.lineNumber block column) = some text ∧
          s.spec.sample block text = .ok value ∧ s.samples[block]? = some value) ∧
    (∀ log' : Log,
      (∀ block < recipe.blocks, ∀ column < recipe.metrics.length,
        log'.lines[recipe.lineNumber block column]? = log.lines[recipe.lineNumber block column]?) →
      (∀ block < recipe.blocks, ∀ line,
        log'.lines[recipe.lineNumber block recipe.metrics.length]? = some line →
          (Log.decode? line).isSome) →
      ∀ series, (recipe.read log).outcome = .ok series →
        (recipe.read log').outcome = .ok series) ∧
    (HasRoom log.lines.length → ∀ series,
      (recipe.parse log).outcome = .ok series ↔ (recipe.read log).outcome = .ok series) := by
  refine ⟨?_, fun series run => ?_, fun log' same text series run => ?_,
    fun room series => Recipe.parse_eq_ok_iff_of_lines room⟩
  · rw [Recipe.outcome_eq_ok_iff valid]
    constructor
    · intro fits block inBlocks
      refine ⟨fun column spec metric => ?_, fun line => fits.separator inBlocks⟩
      obtain ⟨value, sample⟩ := Option.isSome_iff_exists.1 (fits.sample inBlocks metric)
      obtain ⟨text, there, accepted⟩ := (bind_ofLine?_eq_some_iff block).1 sample
      exact ⟨text, value, there, accepted⟩
    · intro fits
      refine ⟨fun {block column spec} inBlocks metric => ?_, fun {block line} inBlocks => ?_⟩
      · obtain ⟨text, value, there, accepted⟩ := (fits block inBlocks).1 column spec metric
        exact Option.isSome_iff_exists.2
          ⟨value, (bind_ofLine?_eq_some_iff block).2 ⟨text, there, accepted⟩⟩
      · exact (fits block inBlocks).2 line
  · have gives := Recipe.gives_of_outcome_eq_ok valid run
    refine ⟨gives.specs, fun column s at_ => ?_⟩
    have samples := gives.samples at_
    have size : s.samples.length = recipe.blocks := by
      simpa using congrArg List.length samples
    refine ⟨size, fun block inBlocks => ?_⟩
    have sample := congrArg (·[block]?) samples
    simp only [List.getElem?_map, List.getElem?_range inBlocks, Option.map_some] at sample
    obtain ⟨value, inSeries, inLines⟩ := Option.map_eq_some_iff.1 sample
    obtain ⟨text, there, accepted⟩ := (bind_ofLine?_eq_some_iff block).1 inLines.symm
    exact ⟨text, value, there, accepted, inSeries⟩
  · refine Recipe.outcome_eq_ok_of_same valid run (fun block inBlocks column spec metric => ?_) text
    rw [same block inBlocks column (List.getElem?_eq_some_iff.1 metric).1]

/-- A recipe of one metric, for logs of three laps. -/
def Recipe.laps : Recipe where
  name := "laps"
  blocks := 3
  metrics := [⟨"ticks", .integer, 2, .keep⟩]

/-- Neither the text of a separator line nor a byte that is not text behind the last one matters. -/
theorem read_layout_laps :
    Recipe.laps.validate = .ok () ∧
      ∃ series, (Recipe.laps.read (Log.encode "12 \n--\n34 \n\n56 \n\n".toList ++ [0xff])).outcome =
          .ok series ∧
        series.map Series.spec = Recipe.laps.metrics ∧
        ∀ s, series[0]? = some s → s.samples.length = 3 := by
  refine ⟨rfl, [⟨⟨"ticks", .integer, 2, .keep⟩, [.ofInt 12, .ofInt 34, .ofInt 56]⟩], rfl, ?_⟩
  have layout := read_layout Recipe.laps rfl (Log.encode "12 \n--\n34 \n\n56 \n\n".toList ++ [0xff])
  obtain ⟨specs, samples⟩ := layout.2.1 _ rfl
  exact ⟨specs, fun s at_ => (samples 0 s at_).1⟩

end BenchLog
