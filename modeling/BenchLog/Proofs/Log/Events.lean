import BenchLog.Proofs.Log.BlockOrder
import BenchLog.Proofs.Log.FirstFault
import BenchLog.Proofs.Recipe.Validity

/-!
# What is told while a log is read

At each line number there is something to tell (`Recipe.ToldAt`): the sample of a metric line, or,
at a separator line, that the block is read. A separator line that is not there is worth a warning
if more blocks are to come. Reading tells this of the lines before the first fault, in their order
(`Recipe.exists_tells`).

Behind a warning nothing is left to read, so the next metric line is a fault. Hence a log that can
be read has one event for each line (`Recipe.Tells.getElem?_events`), and there is a warning exactly
if the log stops behind the metric lines of a block that is not the last (`Recipe.StopsBehind`). All
of it is said in `parse_events`. Without room for the samples nothing is told, not even that the log
stops behind a block (`exists_untold_warning`).
-/

namespace BenchLog

/-- What is told at line number `k` of a log. -/
inductive Recipe.ToldAt (recipe : Recipe) (log : Log) (k : Nat) : List Event → Prop
  /-- The text of a metric line is accepted. -/
  | sample {spec : MetricSpec} {line : List UInt8} {text : List Char} {value : Binary64}
    (metric : recipe.metrics[k % (recipe.metrics.length + 1)]? = some spec)
    (there : log.lines[k]? = some line) (decoded : Log.decode? line = some text)
    (accepted : spec.extract? text = some value) :
    ToldAt recipe log k [.sampleRead (k / (recipe.metrics.length + 1)) spec.name value]
  /-- A separator line is there, or is not needed because it is the last. -/
  | block (separator : k % (recipe.metrics.length + 1) = recipe.metrics.length)
    (expected : (∃ line, log.lines[k]? = some line ∧ (Log.decode? line).isSome) ∨
      log.lines[k]? = none ∧ k / (recipe.metrics.length + 1) + 1 = recipe.blocks) :
    ToldAt recipe log k [.blockRead (k / (recipe.metrics.length + 1) + 1) recipe.blocks]
  /-- A separator line is not there, and more blocks are to come. -/
  | missing (separator : k % (recipe.metrics.length + 1) = recipe.metrics.length)
    (missing : log.lines[k]? = none)
    (more : k / (recipe.metrics.length + 1) + 1 < recipe.blocks) :
    ToldAt recipe log k [.separatorMissing (k / (recipe.metrics.length + 1)),
      .blockRead (k / (recipe.metrics.length + 1) + 1) recipe.blocks]

/-- A reading tells of one line after the other what there is to tell at it, up to the first fault,
and fails with that; without a fault it tells of all lines and succeeds. -/
structure Recipe.Tells (recipe : Recipe) (log : Log) (reading : Reading (List Series))
    (told : List (List Event)) : Prop where
  fine : ∀ k < told.length, ∀ error, ¬ recipe.FaultAt log k error
  stops : told.length = recipe.lineCount ∧ (∃ series, reading.outcome = .ok series) ∨
    told.length < recipe.lineCount ∧ ∃ error, recipe.FaultAt log told.length error ∧
      reading.outcome = .error error
  each : ∀ (k : Nat) (events : List Event), told[k]? = some events → recipe.ToldAt log k events
  events : reading.events = told.flatten

/-- The log ends behind the metric lines of a block, nothing is wrong before, and more blocks should
come. -/
structure Recipe.StopsBehind (recipe : Recipe) (log : Log) (block : Nat) : Prop where
  more : block + 1 < recipe.blocks
  ends : log.lines.length = recipe.lineNumber block recipe.metrics.length
  fine : ∀ k < recipe.lineNumber block recipe.metrics.length, ∀ error,
    ¬ recipe.FaultAt log k error

/-- A list of single elements is that of the elements. -/
theorem eq_map_singleton {α : Type} {rows : List (List α)} (single : ∀ row ∈ rows, ∃ x, row = [x]) :
    rows = rows.flatten.map fun x => [x] := by
  induction rows with
  | nil => rfl
  | cons row rows ih =>
    obtain ⟨x, rfl⟩ := single row List.mem_cons_self
    rw [List.flatten_cons, List.map_append,
      ← ih fun row' member => single row' (List.mem_cons_of_mem _ member)]
    rfl

namespace Recipe

variable {recipe : Recipe} {log : Log} {k : Nat} {events : List Event}

/-! ## Line by line -/

theorem lineNumber_div_mod (recipe : Recipe) (block : Nat) {column : Nat}
    (inBlock : column ≤ recipe.metrics.length) :
    recipe.lineNumber block column / (recipe.metrics.length + 1) = block ∧
      recipe.lineNumber block column % (recipe.metrics.length + 1) = column := by
  have less : column < recipe.metrics.length + 1 := Nat.lt_succ_of_le inBlock
  rw [lineNumber, Nat.mul_comm, Nat.mul_add_div (Nat.succ_pos _), Nat.mul_add_mod,
    Nat.div_eq_of_lt less, Nat.mod_eq_of_lt less]
  exact ⟨Nat.add_zero block, rfl⟩

theorem lineNumber_lt_lineCount {block column : Nat} (inBlocks : block < recipe.blocks)
    (inBlock : column ≤ recipe.metrics.length) :
    recipe.lineNumber block column < recipe.lineCount := by
  unfold lineNumber lineCount
  have := Nat.mul_le_mul_right (recipe.metrics.length + 1) (Nat.succ_le_of_lt inBlocks)
  rw [Nat.succ_mul] at this
  omega

/-- A slot where nothing is wrong tells what there is to tell at its line. -/
theorem toldAt_of_fault?_eq_none {slot : Slot} (at_ : recipe.slots[k]? = some slot)
    (fine : slot.fault? log.lines[k]? = none) :
    recipe.ToldAt log k (slot.events log.lines[k]?) := by
  obtain ⟨block, inBlocks, ⟨column, spec, metric, rfl, rfl⟩ | ⟨rfl, rfl⟩⟩ := cases_of_slot at_
  · have inBlock := Nat.le_of_lt (List.getElem?_eq_some_iff.1 metric).1
    obtain ⟨div, mod⟩ := recipe.lineNumber_div_mod block inBlock
    obtain ⟨value, sample⟩ := Option.isSome_iff_exists.1 (Slot.fault?_sample_eq_none_iff.1 fine)
    obtain ⟨line, there, ofLine⟩ := Option.bind_eq_some_iff.1 sample
    obtain ⟨text, decoded, accepted⟩ := Option.bind_eq_some_iff.1 ofLine
    have told : recipe.ToldAt log _ _ := .sample (mod.symm ▸ metric) there decoded accepted
    rw [div] at told
    rwa [Slot.events, sample]
  · obtain ⟨div, mod⟩ := recipe.lineNumber_div_mod block (Nat.le_refl recipe.metrics.length)
    cases there : log.lines[recipe.lineNumber block recipe.metrics.length]? with
    | some line =>
      have text := Slot.fault?_separator_eq_none_iff.1 fine line there
      have told : recipe.ToldAt log _ _ := .block mod (Or.inl ⟨line, there, text⟩)
      rwa [div] at told
    | none =>
      by_cases more : block + 1 < recipe.blocks
      · have told : recipe.ToldAt log _ _ := .missing mod there (div.symm ▸ more)
        rw [div] at told
        rw [Slot.events, if_pos ⟨rfl, more⟩]
        exact told
      · have last : block + 1 = recipe.blocks := by omega
        have told : recipe.ToldAt log _ _ := .block mod (Or.inr ⟨there, div.symm ▸ last⟩)
        rw [div] at told
        rw [Slot.events, if_neg fun h => more h.2]
        exact told

/-- What is told at a metric line is its sample. -/
theorem ToldAt.metric {block column : Nat} {spec : MetricSpec}
    (told : recipe.ToldAt log (recipe.lineNumber block column) events)
    (metric : recipe.metrics[column]? = some spec) :
    ∃ value, log.lines[recipe.lineNumber block column]?.bind spec.ofLine? = some value ∧
      events = [.sampleRead block spec.name value] := by
  have inBlock : column < recipe.metrics.length := (List.getElem?_eq_some_iff.1 metric).1
  obtain ⟨div, mod⟩ := recipe.lineNumber_div_mod block (Nat.le_of_lt inBlock)
  cases told with
  | @sample spec' line text value metric' there decoded accepted =>
    rw [mod, metric, Option.some.injEq] at metric'
    subst metric'
    refine ⟨value, ?_, by rw [div]⟩
    rw [there, Option.bind_some, MetricSpec.ofLine?, decoded, Option.bind_some, accepted]
  | block separator _ => omega
  | missing separator _ _ => omega

/-- What is told at a separator line is that the block is read, perhaps behind a warning. -/
theorem ToldAt.separator {block : Nat}
    (told : recipe.ToldAt log (recipe.lineNumber block recipe.metrics.length) events) :
    if log.lines[recipe.lineNumber block recipe.metrics.length]? = none ∧
        block + 1 < recipe.blocks then
      events = [.separatorMissing block, .blockRead (block + 1) recipe.blocks]
    else events = [.blockRead (block + 1) recipe.blocks] := by
  obtain ⟨div, mod⟩ := recipe.lineNumber_div_mod block (Nat.le_refl recipe.metrics.length)
  cases told with
  | sample metric _ _ _ =>
    rw [mod, List.getElem?_eq_none (Nat.le_refl _)] at metric
    cases metric
  | block _ expected =>
    rw [div] at expected ⊢
    rcases expected with ⟨line, there, -⟩ | ⟨missing, last⟩
    · rw [there, if_neg (by simp)]
    · rw [if_neg (by omega)]
  | missing _ missing more =>
    rw [div] at more ⊢
    rw [if_pos ⟨missing, more⟩]

/-- Reading tells of the lines before the first fault. -/
theorem exists_tells (valid : recipe.validate = .ok ()) (log : Log) :
    ∃ told, recipe.Tells log (recipe.read log) told := by
  -- up to a line number before which nothing is wrong, the slots are told line by line
  have lines {k : Nat} (le : k ≤ recipe.lineCount) (sound : Sound (recipe.slots.take k) log.lines) :
      ∃ told : List (List Event), told.length = k ∧
        trace (recipe.slots.take k) log.lines = told.flatten ∧
        ∀ (i : Nat) (events : List Event), told[i]? = some events → recipe.ToldAt log i events := by
    refine ⟨_, ?_, trace_eq_flatten _ _, fun i events at_ => ?_⟩
    · rw [List.length_mapIdx, List.length_take, length_slots, Nat.min_eq_left le]
    · rw [List.getElem?_mapIdx] at at_
      obtain ⟨slot, inSlots, rfl⟩ := Option.map_eq_some_iff.1 at_
      exact toldAt_of_fault?_eq_none (getElem?_of_take inSlots) (sound i slot inSlots)
  rcases sound_or_exists_firstFault recipe.slots log.lines with sound | ⟨k, error, fault⟩
  · obtain ⟨series, -, run⟩ := (reads valid).succeeds sound
    rw [← List.take_length (l := recipe.slots), length_slots] at sound
    obtain ⟨told, length, flat, each⟩ := lines (Nat.le_refl _) sound
    rw [← length_slots, List.take_length] at flat
    refine ⟨told, ?_, Or.inl ⟨length, series, by rw [run]⟩, each, by rw [run, flat]⟩
    rw [length]
    exact (sound_take_iff (Nat.le_refl _)).1 sound
  · obtain ⟨⟨slot, at_, wrong⟩, sound⟩ := fault
    have inside := lt_lineCount_of_slot at_
    have run := (reads valid).fails ⟨⟨slot, at_, wrong⟩, sound⟩
    obtain ⟨told, rfl, flat, each⟩ := lines (Nat.le_of_lt inside) sound
    exact ⟨told, (sound_take_iff (Nat.le_of_lt inside)).1 sound,
      Or.inr ⟨inside, error, (faultAt_iff inside).2 ⟨slot, at_, wrong⟩, by rw [run]⟩, each,
      by rw [run, flat]⟩

/-! ## Warnings -/

/-- Where a metric line is not there, reading fails. -/
theorem faultAt_of_missing {block column : Nat} {spec : MetricSpec}
    (metric : recipe.metrics[column]? = some spec)
    (missing : log.lines[recipe.lineNumber block column]? = none) :
    recipe.FaultAt log (recipe.lineNumber block column) (.ended block spec.name) := by
  have inBlock : column < recipe.metrics.length := (List.getElem?_eq_some_iff.1 metric).1
  obtain ⟨div, mod⟩ := recipe.lineNumber_div_mod block (Nat.le_of_lt inBlock)
  have fault : recipe.FaultAt log _ _ := .ended (mod.symm ▸ metric) missing
  rwa [div] at fault

/-- The first line of a block stands behind the separator line of the block before. -/
theorem lineNumber_succ_zero (recipe : Recipe) (block : Nat) :
    recipe.lineNumber (block + 1) 0 = recipe.lineNumber block recipe.metrics.length + 1 := by
  unfold lineNumber
  rw [Nat.succ_mul]
  omega

/-- A log that stops behind a block has no line for the first metric of the next one. -/
theorem StopsBehind.faultAt_iff {block : Nat} (stops : recipe.StopsBehind log block)
    {spec : MetricSpec} (metric : recipe.metrics[0]? = some spec) {error : LogError} :
    recipe.FaultAt log (recipe.lineNumber block recipe.metrics.length + 1) error ↔
      error = .ended (block + 1) spec.name := by
  have missing : log.lines[recipe.lineNumber (block + 1) 0]? = none := by
    rw [List.getElem?_eq_none_iff, stops.ends, lineNumber_succ_zero]
    omega
  obtain ⟨div, mod⟩ := recipe.lineNumber_div_mod (block + 1) (Nat.zero_le recipe.metrics.length)
  rw [← lineNumber_succ_zero]
  constructor
  · intro fault
    cases fault with
    | unreadable there _ => rw [missing] at there; cases there
    | ended metric' _ =>
      rw [mod, metric, Option.some.injEq] at metric'
      rw [div, metric']
    | notNumber _ there _ _ => rw [missing] at there; cases there
  · rintro rfl
    exact faultAt_of_missing metric missing

theorem StopsBehind.missing {block : Nat} (stops : recipe.StopsBehind log block) :
    log.lines[recipe.lineNumber block recipe.metrics.length]? = none := by
  rw [List.getElem?_eq_none_iff, stops.ends]

/-- At the separator line of a block behind which the log stops nothing is wrong. -/
theorem StopsBehind.not_faultAt {block : Nat} (stops : recipe.StopsBehind log block)
    (error : LogError) :
    ¬ recipe.FaultAt log (recipe.lineNumber block recipe.metrics.length) error := by
  obtain ⟨-, mod⟩ := recipe.lineNumber_div_mod block (Nat.le_refl recipe.metrics.length)
  intro fault
  have missing := stops.missing
  cases fault with
  | unreadable there _ => rw [missing] at there; cases there
  | ended metric _ =>
    rw [mod, List.getElem?_eq_none (Nat.le_refl _)] at metric
    cases metric
  | notNumber _ there _ _ => rw [missing] at there; cases there

/-- What is told at a line is a warning only if the log stops there. -/
theorem ToldAt.stopsBehind (some : 0 < recipe.metrics.length) (told : recipe.ToldAt log k events)
    (fine : ∀ i < k, ∀ error, ¬ recipe.FaultAt log i error) {event : Event}
    (mem : event ∈ events) (warn : event.level = .warn) :
    ∃ block, k = recipe.lineNumber block recipe.metrics.length ∧
      recipe.StopsBehind log block := by
  cases told with
  | sample _ _ _ _ =>
    obtain rfl := List.mem_singleton.1 mem
    cases warn
  | block _ _ =>
    obtain rfl := List.mem_singleton.1 mem
    cases warn
  | missing separator missing more =>
    have number : k = recipe.lineNumber (k / (recipe.metrics.length + 1)) recipe.metrics.length := by
      have split := Nat.div_add_mod k (recipe.metrics.length + 1)
      rw [separator, Nat.mul_comm] at split
      exact split.symm
    generalize k / (recipe.metrics.length + 1) = block at number more
    subst number
    refine ⟨block, rfl, more, Nat.le_antisymm (List.getElem?_eq_none_iff.1 missing) ?_, fine⟩
    -- the last metric line of the block is there, since nothing is wrong with it
    obtain ⟨column, last⟩ : ∃ column, recipe.metrics.length = column + 1 :=
      ⟨recipe.metrics.length - 1, by omega⟩
    have before : recipe.lineNumber block recipe.metrics.length =
        recipe.lineNumber block column + 1 := by
      unfold lineNumber
      omega
    rw [before]
    refine Nat.succ_le_of_lt (Nat.not_le.1 fun short => ?_)
    exact fine _ (by omega) _ (faultAt_of_missing (List.getElem?_eq_getElem (by omega))
      (List.getElem?_eq_none_iff.2 short))

namespace Tells

variable {reading : Reading (List Series)} {told : List (List Event)}
  (tells : recipe.Tells log reading told)

include tells

theorem length_le : told.length ≤ recipe.lineCount := by
  rcases tells.stops with ⟨all, -⟩ | ⟨less, -⟩
  · exact Nat.le_of_eq all
  · exact Nat.le_of_lt less

theorem exists_of_mem {event : Event} (mem : event ∈ reading.events) :
    ∃ k < told.length, ∃ events, told[k]? = some events ∧ event ∈ events := by
  rw [tells.events] at mem
  obtain ⟨events, inTold, mem⟩ := List.mem_flatten.1 mem
  obtain ⟨k, at_⟩ := List.mem_iff_getElem?.1 inTold
  exact ⟨k, (List.getElem?_eq_some_iff.1 at_).1, events, at_, mem⟩

/-- Everything but a warning is told as a detail, in one of two ways. -/
theorem level_of_mem {event : Event} (mem : event ∈ reading.events) :
    event.level = .warn ∨ event.level = .debug ∧ (event.message = "extracted sample" ∨
      ∃ block < recipe.blocks, event.message = s!"Parsed block {block + 1} of {recipe.blocks}") := by
  obtain ⟨k, inside, events, at_, mem⟩ := tells.exists_of_mem mem
  have inBlocks : k / (recipe.metrics.length + 1) < recipe.blocks :=
    (Nat.div_lt_iff_lt_mul (Nat.succ_pos _)).2 (Nat.lt_of_lt_of_le inside tells.length_le)
  cases tells.each k events at_ with
  | sample _ _ _ _ =>
    obtain rfl := List.mem_singleton.1 mem
    exact Or.inr ⟨rfl, Or.inl rfl⟩
  | block _ _ =>
    obtain rfl := List.mem_singleton.1 mem
    exact Or.inr ⟨rfl, Or.inr ⟨_, inBlocks, rfl⟩⟩
  | missing _ _ _ =>
    rcases List.mem_cons.1 mem with rfl | mem
    · exact Or.inl rfl
    · obtain rfl := List.mem_singleton.1 mem
      exact Or.inr ⟨rfl, Or.inr ⟨_, inBlocks, rfl⟩⟩

theorem stopsBehind_of_warn (some : 0 < recipe.metrics.length) {event : Event}
    (mem : event ∈ reading.events) (warn : event.level = .warn) :
    ∃ block, recipe.StopsBehind log block := by
  obtain ⟨k, inside, events, at_, mem⟩ := tells.exists_of_mem mem
  have fine : ∀ i < k, ∀ error, ¬ recipe.FaultAt log i error :=
    fun i before => tells.fine i (by omega)
  obtain ⟨block, -, stops⟩ := (tells.each k events at_).stopsBehind some fine mem warn
  exact ⟨block, stops⟩

/-- Reading a log that stops behind a block stops at the next one. -/
theorem length_of_stopsBehind (some : 0 < recipe.metrics.length) {block : Nat}
    (stops : recipe.StopsBehind log block) :
    told.length = recipe.lineNumber block recipe.metrics.length + 1 := by
  have fault := (stops.faultAt_iff (List.getElem?_eq_getElem some)).2 rfl
  have inside := recipe.lineNumber_lt_lineCount stops.more (Nat.zero_le recipe.metrics.length)
  rw [lineNumber_succ_zero] at inside
  refine Nat.le_antisymm (Nat.not_lt.1 fun late => tells.fine _ late _ fault)
    (Nat.not_lt.1 fun early => ?_)
  rcases tells.stops with ⟨all, -⟩ | ⟨-, error, wrong, -⟩
  · omega
  · rcases Nat.lt_or_eq_of_le (Nat.le_of_lt_succ early) with before | last
    · exact stops.fine _ before error wrong
    · rw [last] at wrong
      exact stops.not_faultAt error wrong

/-- Where the log stops behind a block, the last that is told is a warning and the end of this block,
and reading fails at the next one. -/
theorem of_stopsBehind (some : 0 < recipe.metrics.length) {block : Nat}
    (stops : recipe.StopsBehind log block) :
    ∃ earlier spec, recipe.metrics[0]? = Option.some spec ∧
      reading.events =
        earlier ++ [.separatorMissing block, .blockRead (block + 1) recipe.blocks] ∧
      (∀ event ∈ earlier, event.level ≠ .warn) ∧
      reading.outcome = .error (.ended (block + 1) spec.name) := by
  have first : recipe.metrics[0]? = Option.some recipe.metrics[0] := List.getElem?_eq_getElem some
  have inside := recipe.lineNumber_lt_lineCount stops.more (Nat.zero_le recipe.metrics.length)
  rw [lineNumber_succ_zero] at inside
  have length := tells.length_of_stopsBehind some stops
  obtain ⟨before, last, rfl⟩ : ∃ before last, told = before ++ [last] :=
    ⟨_, _, (List.dropLast_append_getLast (List.ne_nil_of_length_pos (by omega))).symm⟩
  rw [List.length_append, List.length_singleton, Nat.add_right_cancel_iff] at length
  have toldLast := tells.each _ last List.getElem?_concat_length
  rw [length] at toldLast
  have end_ := toldLast.separator
  rw [if_pos ⟨stops.missing, stops.more⟩] at end_
  refine ⟨before.flatten, _, first, ?_, fun event mem warn => ?_, ?_⟩
  · rw [tells.events, List.flatten_append, List.flatten_singleton, end_]
  · obtain ⟨events, inTold, mem⟩ := List.mem_flatten.1 mem
    obtain ⟨k, at_⟩ := List.mem_iff_getElem?.1 inTold
    have early := (List.getElem?_eq_some_iff.1 at_).1
    have told := tells.each k events (by rw [List.getElem?_append_left early, at_])
    obtain ⟨block', number, stops'⟩ := told.stopsBehind some
      (fun i less => stops.fine i (by omega)) mem warn
    have ends := stops.ends.symm.trans stops'.ends
    omega
  · rcases tells.stops with ⟨all, -⟩ | ⟨-, error, wrong, run⟩
    · rw [List.length_append, List.length_singleton] at all
      omega
    · rw [List.length_append, List.length_singleton, length, stops.faultAt_iff first] at wrong
      rw [run, wrong]

/-- A log that can be read has one event for each line. -/
theorem getElem?_events (some : 0 < recipe.metrics.length) {series : List Series}
    (run : reading.outcome = .ok series) :
    reading.events.length = recipe.lineCount ∧
      ∀ k < recipe.lineCount, ∃ event, reading.events[k]? = Option.some event ∧
        recipe.ToldAt log k [event] := by
  obtain ⟨all, -⟩ : told.length = recipe.lineCount ∧ _ := by
    rcases tells.stops with whole | ⟨-, error, -, failed⟩
    · exact whole
    · rw [failed] at run
      cases run
  have single : ∀ events ∈ told, ∃ event, events = [event] := by
    intro events inTold
    obtain ⟨k, at_⟩ := List.mem_iff_getElem?.1 inTold
    have inside := (List.getElem?_eq_some_iff.1 at_).1
    have toldAt := tells.each k events at_
    cases toldAt with
    | sample _ _ _ _ => exact ⟨_, rfl⟩
    | block _ _ => exact ⟨_, rfl⟩
    | missing _ _ _ =>
      -- behind a warning there would be a fault
      obtain ⟨block, number, stops⟩ := (tells.each k _ at_).stopsBehind some
        (fun i less => tells.fine i (by omega)) List.mem_cons_self rfl
      have length := tells.length_of_stopsBehind some stops
      have next := recipe.lineNumber_lt_lineCount stops.more (Nat.zero_le recipe.metrics.length)
      rw [lineNumber_succ_zero] at next
      omega
  have each := eq_map_singleton single
  rw [← tells.events] at each
  have length := congrArg List.length each
  rw [List.length_map, all] at length
  refine ⟨length.symm, fun k inside => ?_⟩
  have there := List.getElem?_eq_getElem (l := reading.events) (i := k) (by omega)
  refine ⟨_, there, tells.each k _ ?_⟩
  rw [each, List.getElem?_map, there]
  rfl

end Tells

end Recipe

/-! ## All that is told -/

/-- Parsing tells of each line before the first fault what there is to tell, in turn. A log that can
be parsed has an event for each line: the samples of the series, block by block, with the end of each
block behind its samples. There is a warning exactly if the log stops behind a block that is not the
last; then it is the only one, the end of that block is all that follows, and parsing fails at the
first metric of the next block. All that is so if there is room for the samples; otherwise nothing is
told. -/
theorem parse_events (recipe : Recipe) (valid : recipe.validate = .ok ()) (log : Log) :
    let reading := recipe.parse log
    (¬ HasRoom recipe.blocks → reading = ⟨[], .error .capacityOverflow, log⟩) ∧
    (HasRoom recipe.blocks →
      (∃ told, recipe.Tells log reading told) ∧
      (∀ event ∈ reading.events,
        event.level = .warn ∨ event.level = .debug ∧ (event.message = "extracted sample" ∨
          ∃ block < recipe.blocks,
            event.message = s!"Parsed block {block + 1} of {recipe.blocks}")) ∧
      (∀ series, reading.outcome = .ok series →
        reading.events.length = recipe.lineCount ∧
        (∀ event ∈ reading.events, event.level ≠ .warn) ∧
        series.map Series.spec = recipe.metrics ∧
        ∀ block < recipe.blocks,
          (∀ (column : Nat) (s : Series), series[column]? = some s →
            ∃ value, s.samples[block]? = some value ∧
              reading.events[recipe.lineNumber block column]? =
                some (.sampleRead block s.spec.name value)) ∧
          reading.events[recipe.lineNumber block recipe.metrics.length]? =
            some (.blockRead (block + 1) recipe.blocks)) ∧
      ((∃ event ∈ reading.events, event.level = .warn) ↔
        ∃ block, recipe.StopsBehind log block) ∧
      (∀ block, recipe.StopsBehind log block → ∃ earlier spec, recipe.metrics[0]? = some spec ∧
        reading.events =
          earlier ++ [.separatorMissing block, .blockRead (block + 1) recipe.blocks] ∧
        (∀ event ∈ earlier, event.level ≠ .warn) ∧
        reading.outcome = .error (.ended (block + 1) spec.name))) := by
  intro reading
  have metrics : 0 < recipe.metrics.length :=
    List.length_pos_iff.2 (Recipe.validate_eq_ok_iff.1 valid).1
  refine ⟨fun full => congrFun (Recipe.parse_of_full valid full) log, fun room => ?_⟩
  have same : reading = recipe.read log := congrFun (Recipe.parse_eq_read room) log
  obtain ⟨told, tells⟩ := Recipe.exists_tells valid log
  rw [← same] at tells
  refine ⟨⟨told, tells⟩, fun event mem => tells.level_of_mem mem, fun series run => ?_,
    ⟨?_, ?_⟩, fun block stops => tells.of_stopsBehind metrics stops⟩
  · obtain ⟨length, each⟩ := tells.getElem?_events metrics run
    have gives := Recipe.gives_of_outcome_eq_ok valid (same ▸ run)
    refine ⟨length, fun event mem warn => ?_, gives.specs, fun block inBlocks =>
      ⟨fun column s at_ => ?_, ?_⟩⟩
    · obtain ⟨block, stops⟩ := tells.stopsBehind_of_warn metrics mem warn
      obtain ⟨_, _, -, -, -, failed⟩ := tells.of_stopsBehind metrics stops
      rw [failed] at run
      cases run
    · have metric := gives.metric at_
      have inBlock := (List.getElem?_eq_some_iff.1 metric).1
      obtain ⟨event, there, toldAt⟩ := each _
        (recipe.lineNumber_lt_lineCount inBlocks (Nat.le_of_lt inBlock))
      obtain ⟨value, sample, same⟩ := toldAt.metric metric
      obtain rfl := List.singleton_inj.1 same
      exact ⟨value, by rw [gives.sample at_ inBlocks, sample], there⟩
    · obtain ⟨event, there, toldAt⟩ := each _
        (recipe.lineNumber_lt_lineCount inBlocks (Nat.le_refl _))
      have same := toldAt.separator
      split at same
      · cases same
      · rw [there, List.singleton_inj.1 same]
  · rintro ⟨event, mem, warn⟩
    exact tells.stopsBehind_of_warn metrics mem warn
  · rintro ⟨block, stops⟩
    obtain ⟨earlier, _, -, events, -, -⟩ := tells.of_stopsBehind metrics stops
    exact ⟨.separatorMissing block, by rw [events]; simp, rfl⟩

/-- A log that stops behind the second of three laps. -/
theorem parse_events_laps :
    let log := Log.encode "12 \n--\n34 \n".toList
    Recipe.laps.validate = .ok () ∧ Recipe.laps.StopsBehind log 1 ∧
      ∃ earlier, (Recipe.laps.parse log).events =
          earlier ++ [.separatorMissing 1, .blockRead 2 3] ∧
        (∀ event ∈ earlier, event.level ≠ .warn) ∧
        (Recipe.laps.parse log).outcome = .error (.ended 2 "ticks") := by
  intro log
  have fine : ∀ k < 3, ∀ error, ¬ Recipe.laps.FaultAt log k error := by
    intro k before
    obtain rfl | rfl | rfl : k = 0 ∨ k = 1 ∨ k = 2 := by omega
    · exact Recipe.not_faultAt_of_slot rfl rfl
    · exact Recipe.not_faultAt_of_slot rfl rfl
    · exact Recipe.not_faultAt_of_slot rfl rfl
  have stops : Recipe.laps.StopsBehind log 1 := ⟨by decide, rfl, fine⟩
  obtain ⟨-, all⟩ := parse_events Recipe.laps rfl log
  obtain ⟨-, -, -, -, last⟩ := all (by decide)
  obtain ⟨earlier, spec, first, events, quiet, failed⟩ := last 1 stops
  cases first
  exact ⟨rfl, stops, earlier, events, quiet, failed⟩

/-- A log that stops behind a block is not always worth a warning: without room for the samples there
is none, and what is told is not the metric that is missing. -/
theorem exists_untold_warning :
    ¬ ∀ (recipe : Recipe) (log : Log), recipe.validate = .ok () →
      ∀ block, recipe.StopsBehind log block →
        (∃ event ∈ (recipe.parse log).events, event.level = .warn) ∧
        ∃ spec, recipe.metrics[0]? = some spec ∧
          (recipe.parse log).outcome = .error (.ended (block + 1) spec.name) := by
  intro told
  have fine : ∀ error, ¬ Recipe.endlessLaps.FaultAt (Log.encode "12 \n".toList) 0 error := by
    intro error fault
    cases fault with
    | unreadable there undecodable => cases there; cases undecodable
    | ended metric missing => cases missing
    | notNumber metric there decoded rejected =>
      cases metric; cases there; cases decoded; cases rejected
  have stops : Recipe.endlessLaps.StopsBehind (Log.encode "12 \n".toList) 0 := by
    refine ⟨by decide, rfl, fun k before => ?_⟩
    obtain rfl : k = 0 := Nat.lt_one_iff.1 before
    exact fine
  obtain ⟨⟨event, mem, -⟩, -⟩ := told Recipe.endlessLaps _ rfl 0 stops
  rw [Recipe.parse_endlessLaps] at mem
  cases mem

end BenchLog
