import BenchLog.Proofs.Log.Slots

/-!
# Readers that take lines in turn

`Reads slots fits reader` says all about a reader that goes through slots in turn: it stops at the
first fault, having taken the lines up to it and told the events before it, or takes a line for
each slot and gives a value that fits the lines. Such readers can be run one after the other
(`Reads.andThen`), and the blocks of a log are read by one of them (`reads_readBlocks`).
-/

namespace BenchLog

/-- The reader takes the lines of the slots in turn. At the first fault it stops and fails with it;
if there is none, its value fits the lines. -/
structure Reads {α : Type} (slots : List Slot) (fits : List (List UInt8) → α → Prop)
    (reader : LogReader α) : Prop where
  fails {log : Log} {k : Nat} {error : LogError} : FirstFault slots log.lines k error →
    reader log = ⟨trace (slots.take k) log.lines, .error error, log.afterLines (k + 1)⟩
  succeeds {log : Log} : Sound slots log.lines → ∃ value, fits log.lines value ∧
    reader log = ⟨trace slots log.lines, .ok value, log.afterLines slots.length⟩

namespace Reads

open LogReader

variable {α β : Type} {slots first second : List Slot}

theorem pure (value : α) : Reads [] (fun _ given => given = value) (succeed value) where
  fails h := absurd (sound_nil _) h.not_sound
  succeeds _ := ⟨value, rfl, by rw [List.length_nil, Log.afterLines_zero]; rfl⟩

theorem andThen {fits : List (List UInt8) → α → Prop} {fits' : α → List (List UInt8) → β → Prop}
    {reader : LogReader α} {next : α → LogReader β} (h : Reads first fits reader)
    (h' : ∀ value, Reads second (fits' value) (next value)) :
    Reads (first ++ second)
      (fun lines result => ∃ value, fits lines value ∧
        fits' value (lines.drop first.length) result)
      (reader.andThen next) where
  fails {log k error} fault := by
    rcases fault.of_append with fault | ⟨i, rfl, sound, fault⟩
    · have inside : k < first.length := by
        obtain ⟨⟨slot, at_, -⟩, -⟩ := fault
        exact (List.getElem?_eq_some_iff.1 at_).1
      rw [List.take_append_of_le_length (by omega), LogReader.andThen, h.fails fault]
    · obtain ⟨value, -, run⟩ := h.succeeds sound
      rw [← Log.lines_afterLines] at fault
      simp only [LogReader.andThen, run, (h' value).fails fault, Log.afterLines_afterLines,
        Log.lines_afterLines]
      rw [List.take_length_add_append, trace_append, Nat.add_assoc]
  succeeds {log} sound := by
    obtain ⟨sound, sound'⟩ := sound_append.1 sound
    obtain ⟨value, fit, run⟩ := h.succeeds sound
    rw [← Log.lines_afterLines] at sound'
    obtain ⟨result, fit', run'⟩ := (h' value).succeeds sound'
    rw [Log.lines_afterLines] at fit'
    refine ⟨result, ⟨value, fit, fit'⟩, ?_⟩
    simp only [LogReader.andThen, run, run', Log.afterLines_afterLines, Log.lines_afterLines]
    rw [trace_append, List.length_append]

theorem mapValue {fits : List (List UInt8) → α → Prop} {reader : LogReader α}
    (h : Reads slots fits reader) (f : α → β) :
    Reads slots (fun lines result => ∃ value, fits lines value ∧ result = f value)
      (reader.mapValue f) where
  fails fault := by rw [LogReader.mapValue, h.fails fault]; rfl
  succeeds sound := by
    obtain ⟨value, fit, run⟩ := h.succeeds sound
    exact ⟨f value, ⟨value, fit, rfl⟩, by rw [LogReader.mapValue, run]; rfl⟩

/-- The value may be described in another way, where nothing is wrong. -/
theorem imp {fits fits' : List (List UInt8) → α → Prop} {reader : LogReader α}
    (h : Reads slots fits reader)
    (weaker : ∀ lines value, Sound slots lines → fits lines value → fits' lines value) :
    Reads slots fits' reader where
  fails := h.fails
  succeeds sound := by
    obtain ⟨value, fit, run⟩ := h.succeeds sound
    exact ⟨value, weaker _ value sound fit, run⟩

end Reads

/-! ## The readers of a block -/

open LogReader

/-- A reader of one slot, by what it does with the line. -/
theorem Reads.singleton {α : Type} {slot : Slot} {fits : List (List UInt8) → α → Prop}
    {reader : LogReader α}
    (fails : ∀ (log : Log) (error : LogError), slot.fault? log.lines.head? = some error →
      reader log = ⟨[], .error error, log.afterLines 1⟩)
    (succeeds : ∀ log : Log, slot.fault? log.lines.head? = none → ∃ value, fits log.lines value ∧
      reader log = ⟨slot.events log.lines.head?, .ok value, log.afterLines 1⟩) :
    Reads [slot] fits reader where
  fails {log k error} fault := by
    obtain ⟨rfl, wrong⟩ := fault.of_singleton
    exact fails log error wrong
  succeeds {log} sound := by
    obtain ⟨value, fit, run⟩ := succeeds log (sound_cons.1 sound).1
    exact ⟨value, fit, by rw [run, trace, trace, List.append_nil]; rfl⟩

theorem reads_readSample (block : Nat) (spec : MetricSpec) :
    Reads [.sample block spec] (fun lines value => lines.head?.bind spec.ofLine? = some value)
      (readSample block spec) := by
  obtain ⟨next, unfolded, ended, rejected, accepted⟩ :
      ∃ next : Option (List Char) → LogReader Binary64,
        readSample block spec = readLine.andThen next ∧ next none = fail (.ended block spec.name) ∧
        (∀ text error, spec.sample block text = .error error → next (some text) = fail error) ∧
        ∀ text value, spec.sample block text = .ok value → next (some text) =
          (LogReader.tell (.sampleRead block spec.name value)).andThen fun _ => succeed value := by
    refine ⟨_, rfl, rfl, fun text error rejected => ?_, fun text value accepted => ?_⟩
    · simp only [rejected]
    · simp only [accepted]
      rfl
  refine Reads.singleton (fun log error fault => ?_) (fun log sound => ?_)
  · rw [unfolded, LogReader.andThen, readLine_eq]
    cases line : log.lines.head? with
    | none =>
      rw [line] at fault
      obtain rfl := Option.some.inj fault
      simp only [Log.lineText, ended]
      rfl
    | some bytes =>
      rw [line, Slot.fault?] at fault
      cases text : Log.decode? bytes with
      | none =>
        rw [text] at fault
        obtain rfl := Option.some.inj fault
        simp only [Log.lineText, text]
      | some text' =>
        cases sample : spec.sample block text' with
        | error error' =>
          simp only [text, sample, Option.some.injEq] at fault
          subst fault
          simp only [Log.lineText, text, rejected text' error' sample]
          rfl
        | ok value => simp only [text, sample, reduceCtorEq] at fault
  · obtain ⟨value, fit⟩ := Option.isSome_iff_exists.1 (Slot.fault?_sample_eq_none_iff.1 sound)
    refine ⟨value, fit, ?_⟩
    obtain ⟨line, head, ofLine⟩ := Option.bind_eq_some_iff.1 fit
    obtain ⟨text, decoded, extracted⟩ := Option.bind_eq_some_iff.1 ofLine
    have sample : spec.sample block text = .ok value := by rw [MetricSpec.sample, extracted]
    rw [unfolded, LogReader.andThen, readLine_eq, head]
    simp only [Log.lineText, decoded, accepted text value sample, Slot.events, Option.bind_some,
      ofLine, Option.map_some, Option.toList_some]
    rfl

/-- Reading a separator line ends a block. -/
theorem reads_separator {α : Type} (block total : Nat) (row : α) :
    Reads [.separator block total] (fun _ given => given = row)
      ((readSeparator block total).andThen fun _ =>
        (tell (.blockRead (block + 1) total)).andThen fun _ => succeed row) := by
  obtain ⟨next, unfolded, ended, taken⟩ : ∃ next : Option (List Char) → LogReader Unit,
      readSeparator block total = readLine.andThen next ∧
        next none =
          (if block + 1 < total then LogReader.tell (.separatorMissing block) else succeed ()) ∧
        ∀ text, next (some text) = succeed () := ⟨_, rfl, rfl, fun _ => rfl⟩
  refine Reads.singleton (fun log error fault => ?_) (fun log sound => ⟨row, rfl, ?_⟩)
  all_goals rw [LogReader.andThen, unfolded, LogReader.andThen, readLine_eq]
  · cases line : log.lines.head? with
    | none => rw [line, Slot.fault?] at fault; cases fault
    | some bytes =>
      rw [line, Slot.fault?] at fault
      cases text : Log.decode? bytes with
      | none =>
        rw [text] at fault
        obtain rfl := Option.some.inj fault
        simp only [Log.lineText, text]
      | some text' => simp only [text, reduceCtorEq] at fault
  · cases line : log.lines.head? with
    | none =>
      by_cases more : block + 1 < total
      · simp only [Log.lineText, Slot.events, ended, more, and_self, if_true]
        rfl
      · simp only [Log.lineText, Slot.events, ended, more, and_false, if_false]
        rfl
    | some bytes =>
      rw [Slot.fault?_separator_eq_none_iff] at sound
      obtain ⟨text, decoded⟩ := Option.isSome_iff_exists.1 (sound bytes line)
      simp only [Log.lineText, Slot.events, taken, decoded, reduceCtorEq, false_and, if_false]
      rfl

/-- The row holds the samples of the first lines, one for each metric. -/
def RowFits (specs : List MetricSpec) (lines : List (List UInt8)) (row : List Binary64) : Prop :=
  row.map some = specs.mapIdx fun column spec => lines[column]?.bind spec.ofLine?

theorem reads_readRow (block : Nat) (specs : List MetricSpec) :
    Reads (specs.map (.sample block)) (RowFits specs) (readRow block specs) := by
  induction specs with
  | nil =>
    apply (Reads.pure []).imp
    intro lines row _ fit
    rw [fit]
    rfl
  | cons spec specs ih =>
    refine ((reads_readSample block spec).andThen fun value =>
      ih.mapValue (value :: ·)).imp fun lines row _ fit => ?_
    obtain ⟨value, head, row, rest, rfl⟩ := fit
    rw [RowFits, List.map_cons, List.mapIdx_cons, rest, ← List.head?_eq_getElem?, head]
    simp only [List.length_singleton, List.getElem?_drop, Nat.add_comm 1]

/-- The slots of one block. -/
def blockSlots (specs : List MetricSpec) (total block : Nat) : List Slot :=
  specs.map (.sample block) ++ [.separator block total]

theorem reads_readBlock (specs : List MetricSpec) (total block : Nat) :
    Reads (blockSlots specs total block) (RowFits specs) (readBlock specs total block) := by
  refine ((reads_readRow block specs).andThen fun row =>
    reads_separator block total row).imp fun lines row _ fit => ?_
  obtain ⟨row', fit, rfl⟩ := fit
  exact fit

/-- The slots of so many blocks, of which the first has the number `block`. -/
def slotsOfBlocks (specs : List MetricSpec) (total block : Nat) : Nat → List Slot
  | 0 => []
  | count + 1 => blockSlots specs total block ++ slotsOfBlocks specs total (block + 1) count

/-- There is a row for each block, with the samples of its lines. -/
def RowsFit (specs : List MetricSpec) (count : Nat) (lines : List (List UInt8))
    (rows : List (List Binary64)) : Prop :=
  rows.length = count ∧ ∀ (b : Nat) (row : List Binary64), rows[b]? = some row →
    RowFits specs (lines.drop (b * (specs.length + 1))) row

theorem length_blockSlots (specs : List MetricSpec) (total block : Nat) :
    (blockSlots specs total block).length = specs.length + 1 := by
  simp [blockSlots]

theorem reads_readBlocks (specs : List MetricSpec) (total block count : Nat) :
    Reads (slotsOfBlocks specs total block count) (RowsFit specs count)
      (readBlocks specs total block count) := by
  induction count generalizing block with
  | zero =>
    apply (Reads.pure []).imp
    intro lines rows _ fit
    rw [fit]
    exact ⟨rfl, by simp⟩
  | succ count ih =>
    refine ((reads_readBlock specs total block).andThen fun row =>
      (ih (block + 1)).mapValue (row :: ·)).imp fun lines rows _ fit => ?_
    obtain ⟨row, first, rows, ⟨size, fits⟩, rfl⟩ := fit
    refine ⟨by rw [List.length_cons, size], fun b row' at_ => ?_⟩
    cases b with
    | zero =>
      obtain rfl : row = row' := by simpa using at_
      rwa [Nat.zero_mul, List.drop_zero]
    | succ b =>
      have fit := fits b row' (by simpa using at_)
      rwa [List.drop_drop, length_blockSlots, Nat.add_comm, ← Nat.succ_mul] at fit

/-- The slot in a column of a block: behind the metrics stands the separator. -/
def Slot.ofColumn (specs : List MetricSpec) (total block column : Nat) : Slot :=
  match specs[column]? with
  | some spec => .sample block spec
  | none => .separator block total

theorem getElem?_blockSlots (specs : List MetricSpec) (total block column : Nat)
    (h : column ≤ specs.length) :
    (blockSlots specs total block)[column]? = some (Slot.ofColumn specs total block column) := by
  unfold blockSlots Slot.ofColumn
  by_cases inside : column < specs.length
  · rw [List.getElem?_append_left (by simpa using inside), List.getElem?_map,
      List.getElem?_eq_getElem inside]
    rfl
  · obtain rfl : column = specs.length := by omega
    simp

@[simp] theorem length_slotsOfBlocks (specs : List MetricSpec) (total block count : Nat) :
    (slotsOfBlocks specs total block count).length = count * (specs.length + 1) := by
  induction count generalizing block with
  | zero => simp [slotsOfBlocks]
  | succ count ih =>
    rw [slotsOfBlocks, List.length_append, ih, length_blockSlots, Nat.succ_mul, Nat.add_comm]

theorem getElem?_slotsOfBlocks (specs : List MetricSpec) (total block count : Nat) {b column : Nat}
    (inBlocks : b < count) (inBlock : column ≤ specs.length) :
    (slotsOfBlocks specs total block count)[b * (specs.length + 1) + column]? =
      some (Slot.ofColumn specs total (block + b) column) := by
  induction count generalizing block b with
  | zero => omega
  | succ count ih =>
    have size := length_blockSlots specs total block
    rw [slotsOfBlocks]
    cases b with
    | zero =>
      rw [Nat.zero_mul, Nat.zero_add, List.getElem?_append_left (by omega),
        getElem?_blockSlots _ _ _ _ inBlock, Nat.add_zero]
    | succ b =>
      rw [Nat.succ_mul, List.getElem?_append_right (by omega), size,
        show b * (specs.length + 1) + (specs.length + 1) + column - (specs.length + 1) =
          b * (specs.length + 1) + column by omega,
        ih (block + 1) (by omega), Nat.add_assoc, Nat.add_comm 1]

end BenchLog
