import BenchLog.Proofs.Log.Layout
import BenchLog.Proofs.Recipe.Validity

/-!
# Reading a log in two parts

Blocks can be read in one go, or some of them first and the others from where that reading stopped
(`LogReader.readBlocks_add`). The second part counts its blocks from 0 again and takes the end of
its own blocks for the last, but that shows only in events and in the block that a failure names
(`LogReader.Later`): everything else is as if all blocks had been read at once (`parse_split`).

That is so if there is room for the samples of all blocks. Otherwise they cannot be parsed at once,
whatever the parts give (`exists_split_apart`).
-/

namespace BenchLog

namespace LogReader

variable {α β : Type}

/-! ## Readers in sequence -/

theorem bind_apply (reader : LogReader α) (next : α → LogReader β) (log : Log) :
    (reader >>= next) log = match (reader log).outcome with
      | .error error => ⟨(reader log).events, .error error, (reader log).rest⟩
      | .ok value =>
        ⟨(reader log).events ++ (next value (reader log).rest).events,
          (next value (reader log).rest).outcome, (next value (reader log).rest).rest⟩ := rfl

theorem map_apply (f : α → β) (reader : LogReader α) (log : Log) :
    (f <$> reader) log =
      ⟨(reader log).events, (reader log).outcome.map f, (reader log).rest⟩ := rfl

theorem bind_succeed (reader : LogReader α) (f : α → β) :
    (reader >>= fun value => succeed (f value)) = f <$> reader := by
  funext log
  rw [bind_apply, map_apply]
  cases (reader log).outcome with
  | error error => rfl
  | ok value =>
    show Reading.mk ((reader log).events ++ []) _ _ = _
    rw [List.append_nil]
    rfl

theorem bind_bind {γ : Type} (reader : LogReader α) (next : α → LogReader β)
    (further : β → LogReader γ) :
    (reader >>= next >>= further) = reader >>= fun value => next value >>= further := by
  funext log
  simp only [bind_apply]
  cases (reader log).outcome with
  | error error => rfl
  | ok value =>
    dsimp only
    cases (next value (reader log).rest).outcome with
    | error error => rfl
    | ok value' => simp only [List.append_assoc]

instance : LawfulMonad LogReader :=
  LawfulMonad.mk' LogReader
    (fun reader => by
      funext log
      rw [map_apply, Except.map_id]
      rfl)
    (fun _ _ => rfl) bind_bind (fun _ _ => rfl) (fun _ _ => rfl) (fun _ _ => rfl)
    (fun f reader => bind_succeed reader f) (fun _ _ => rfl)

/-- Some blocks, and then some more. -/
theorem readBlocks_add (specs : List MetricSpec) (total block first second : Nat) :
    readBlocks specs total block (first + second) = (do
      let rows ← readBlocks specs total block first
      (rows ++ ·) <$> readBlocks specs total (block + first) second) := by
  induction first generalizing block with
  | zero =>
    rw [Nat.zero_add, Nat.add_zero, readBlocks, pure_bind]
    exact (id_map _).symm
  | succ first ih =>
    rw [Nat.add_right_comm, readBlocks, readBlocks, ih, bind_assoc]
    congr 1
    funext row
    rw [map_bind, bind_map_left]
    simp only [Functor.map_map, List.cons_append, Nat.add_assoc, Nat.add_comm 1]

end LogReader

/-! ## Blocks further on -/

/-- The failure, with the block that it names, if any, so many blocks further on. -/
def LogError.later (blocks : Nat) : LogError → LogError
  | ended block metric => ended (block + blocks) metric
  | notNumber block metric kind text => notNumber (block + blocks) metric kind text
  | error => error

theorem LogError.later_zero (error : LogError) : error.later 0 = error := by
  cases error <;> rfl

theorem MetricSpec.sample_add (spec : MetricSpec) (block blocks : Nat) (line : List Char) :
    spec.sample (block + blocks) line = (spec.sample block line).mapError (.later blocks) := by
  unfold MetricSpec.sample
  cases spec.extract? line <;> rfl

theorem Log.mapError_lineText (blocks : Nat) (line? : Option (List UInt8)) :
    (lineText line?).mapError (.later blocks) = lineText line? := by
  cases line? with
  | none => rfl
  | some line =>
    unfold lineText
    cases decoded : decode? line <;> simp only [decoded] <;> rfl

namespace LogReader

variable {α β : Type} {blocks : Nat}

/-- The second reader does what the first does, but for events, and for the block that a failure
names, which is so many blocks further on. -/
def Later (blocks : Nat) (reader late : LogReader α) : Prop :=
  ∀ log, (late log).outcome = (reader log).outcome.mapError (.later blocks) ∧
    (late log).rest = (reader log).rest

theorem Later.bind {reader late : LogReader α} {next next' : α → LogReader β}
    (h : Later blocks reader late) (h' : ∀ value, Later blocks (next value) (next' value)) :
    Later blocks (reader >>= next) (late >>= next') := by
  intro log
  obtain ⟨outcome, rest⟩ := h log
  rw [bind_apply, bind_apply, outcome, rest]
  cases (reader log).outcome with
  | error error => exact ⟨rfl, rfl⟩
  | ok value => exact h' value (reader log).rest

theorem Later.map {reader late : LogReader α} (h : Later blocks reader late) (f : α → β) :
    Later blocks (f <$> reader) (f <$> late) := by
  intro log
  obtain ⟨outcome, rest⟩ := h log
  rw [map_apply, map_apply, outcome, rest]
  cases (reader log).outcome <;> exact ⟨rfl, rfl⟩

theorem later_succeed (value : α) : Later blocks (succeed value) (succeed value) :=
  fun _ => ⟨rfl, rfl⟩

theorem later_fail (error : LogError) :
    Later blocks (fail error : LogReader α) (fail (error.later blocks)) :=
  fun _ => ⟨rfl, rfl⟩

theorem later_tell (event event' : Event) : Later blocks (tell event) (tell event') :=
  fun _ => ⟨rfl, rfl⟩

theorem later_readLine : Later blocks readLine readLine := by
  intro log
  rw [readLine_eq]
  exact ⟨(Log.mapError_lineText blocks log.lines.head?).symm, rfl⟩

theorem later_readSample (block : Nat) (spec : MetricSpec) :
    Later blocks (readSample block spec) (readSample (block + blocks) spec) := by
  apply later_readLine.bind
  rintro (_ | text)
  · exact later_fail _
  · dsimp only
    rw [spec.sample_add]
    cases spec.sample block text with
    | error error => exact later_fail error
    | ok value => exact (later_tell _ _).bind fun _ => later_succeed value

theorem later_readRow (block : Nat) (specs : List MetricSpec) :
    Later blocks (readRow block specs) (readRow (block + blocks) specs) := by
  induction specs with
  | nil => exact later_succeed []
  | cons spec specs ih => exact (later_readSample block spec).bind fun value => ih.map (value :: ·)

/-- A missing separator line is worth a warning or not, but never a failure. -/
theorem later_readSeparator (block total total' : Nat) :
    Later blocks (readSeparator block total) (readSeparator (block + blocks) total') := by
  apply later_readLine.bind
  rintro (_ | text)
  · intro log
    dsimp only
    constructor
    all_goals split <;> split <;> rfl
  · exact later_succeed ()

theorem later_readBlock (specs : List MetricSpec) (block total total' : Nat) :
    Later blocks (readBlock specs total block) (readBlock specs total' (block + blocks)) :=
  (later_readRow block specs).bind fun row => (later_readSeparator block total total').bind
    fun _ => (later_tell _ _).bind fun _ => later_succeed row

theorem later_readBlocks (specs : List MetricSpec) (total total' block count : Nat) :
    Later blocks (readBlocks specs total block count)
      (readBlocks specs total' (block + blocks) count) := by
  induction count generalizing block with
  | zero => exact later_succeed []
  | succ count ih =>
    refine (later_readBlock specs block total total').bind fun row => Later.map ?_ (row :: ·)
    rw [Nat.add_right_comm]
    exact ih (block + 1)

theorem bind_of_error {reader : LogReader α} {log : Log} {error : LogError}
    (failed : (reader log).outcome = .error error) (next : α → LogReader β) :
    ((reader >>= next) log).outcome = .error error ∧
      ((reader >>= next) log).rest = (reader log).rest := by
  rw [bind_apply, failed]
  exact ⟨rfl, rfl⟩

theorem bind_of_ok {reader : LogReader α} {log : Log} {value : α}
    (run : (reader log).outcome = .ok value) (next : α → LogReader β) :
    ((reader >>= next) log).outcome = (next value (reader log).rest).outcome ∧
      ((reader >>= next) log).rest = (next value (reader log).rest).rest := by
  rw [bind_apply, run]
  exact ⟨rfl, rfl⟩

/-- Blocks whose rows are read in two parts. -/
theorem readBlocks_split (specs : List MetricSpec) (first second : Nat) (log : Log) :
    let whole := readBlocks specs (first + second) 0 (first + second) log
    let start := readBlocks specs first 0 first log
    let further := readBlocks specs second 0 second start.rest
    (∀ error, start.outcome = .error error →
      whole.outcome = .error error ∧ whole.rest = start.rest) ∧
    (∀ rows, start.outcome = .ok rows →
      whole.outcome = (further.outcome.map (rows ++ ·)).mapError (.later first) ∧
      whole.rest = further.rest) := by
  intro whole start further
  have early : Later 0 (readBlocks specs first 0 first)
      (readBlocks specs (first + second) 0 first) := later_readBlocks specs first _ 0 first
  have late : Later first (readBlocks specs second 0 second)
      (readBlocks specs (first + second) first second) := by
    have shifted := @later_readBlocks first specs second (first + second) 0 second
    rwa [Nat.zero_add] at shifted
  have parts : whole = _ := congrFun (readBlocks_add specs (first + second) 0 first second) log
  rw [Nat.zero_add] at parts
  obtain ⟨outcome, rest⟩ := early log
  constructor
  · intro error failed
    rw [show (readBlocks specs first 0 first log).outcome = .error error from failed] at outcome
    obtain ⟨whole_outcome, whole_rest⟩ := bind_of_error outcome fun rows =>
      (rows ++ ·) <$> readBlocks specs (first + second) first second
    rw [parts, whole_outcome, whole_rest, rest, LogError.later_zero]
    exact ⟨rfl, rfl⟩
  · intro rows run
    rw [show (readBlocks specs first 0 first log).outcome = .ok rows from run] at outcome
    obtain ⟨whole_outcome, whole_rest⟩ := bind_of_ok outcome fun rows =>
      (rows ++ ·) <$> readBlocks specs (first + second) first second
    rw [parts, whole_outcome, whole_rest, rest]
    exact late.map (rows ++ ·) start.rest

end LogReader

/-! ## The two parts -/

/-- The samples of a series, and behind them those of another. -/
def Series.append (first second : Series) : Series :=
  { first with samples := first.samples ++ second.samples }

theorem columns_append (specs : List MetricSpec) (rows more : List (List Binary64)) :
    columns specs (rows ++ more) =
      List.zipWith Series.append (columns specs rows) (columns specs more) := by
  apply List.ext_getElem?
  intro column
  simp only [columns, List.getElem?_zipWith, List.getElem?_mapIdx]
  cases specs[column]? with
  | none => rfl
  | some spec => simp only [Option.map_some, List.filterMap_append, Series.append]

theorem Recipe.parse_withBlocks {recipe : Recipe} (valid : recipe.validate = .ok ()) {blocks : Nat}
    (enough : leastBlocks ≤ blocks) (room : HasRoom blocks) (log : Log) :
    let rows := LogReader.readBlocks recipe.metrics blocks 0 blocks log
    ((recipe.withBlocks blocks).parse log).outcome = rows.outcome.map (columns recipe.metrics) ∧
      ((recipe.withBlocks blocks).parse log).rest = rows.rest := by
  rw [parse_eq_read room, read, validate_withBlocks valid enough]
  exact ⟨rfl, rfl⟩

/-- Parsing some blocks, and then others from where that stopped, is parsing all of them if there is
room for the samples of all: the first failure is that of the whole, where a block of the second part
counts behind those of the first; otherwise the series are put one behind the other. What is left of
the log is the same. Without the room parsing all of them takes nothing off the log. -/
theorem parse_split (recipe : Recipe) (valid : recipe.validate = .ok ()) (first second : Nat)
    (enough : Recipe.leastBlocks ≤ first) (enough' : Recipe.leastBlocks ≤ second) (log : Log) :
    let whole := (recipe.withBlocks (first + second)).parse log
    let start := (recipe.withBlocks first).parse log
    let further := (recipe.withBlocks second).parse start.rest
    (¬ HasRoom (first + second) →
      whole.outcome = .error .capacityOverflow ∧ whole.rest = log) ∧
    (HasRoom (first + second) →
      (∀ error, start.outcome = .error error →
        whole.outcome = .error error ∧ whole.rest = start.rest) ∧
      (∀ series error, start.outcome = .ok series → further.outcome = .error error →
        whole.outcome = .error (error.later first) ∧ whole.rest = further.rest) ∧
      (∀ series more, start.outcome = .ok series → further.outcome = .ok more →
        series.map Series.spec = recipe.metrics ∧ more.map Series.spec = recipe.metrics ∧
        whole.outcome = .ok (List.zipWith Series.append series more) ∧
        whole.rest = further.rest)) := by
  intro whole start further
  have enoughs : Recipe.leastBlocks ≤ first + second := Nat.le_add_right_of_le enough
  constructor
  · intro full
    have gaveUp : whole = ⟨[], .error .capacityOverflow, log⟩ :=
      congrFun (Recipe.parse_of_full (Recipe.validate_withBlocks valid enoughs) full) log
    rw [gaveUp]
    exact ⟨rfl, rfl⟩
  intro room
  obtain ⟨whole_outcome, whole_rest⟩ := Recipe.parse_withBlocks valid enoughs room log
  obtain ⟨start_outcome, start_rest⟩ :=
    Recipe.parse_withBlocks valid enough (room.mono (Nat.le_add_right first second)) log
  obtain ⟨further_outcome, further_rest⟩ :=
    Recipe.parse_withBlocks valid enough' (room.mono (Nat.le_add_left second first)) start.rest
  obtain ⟨fails, goes⟩ := LogReader.readBlocks_split recipe.metrics first second log
  rw [← start_rest] at fails goes
  change whole.outcome = _ at whole_outcome
  change start.outcome = _ at start_outcome
  change further.outcome = _ at further_outcome
  cases rows_eq : (LogReader.readBlocks recipe.metrics first 0 first log).outcome with
  | error error =>
    obtain ⟨failed, rest⟩ := fails error rows_eq
    rw [rows_eq] at start_outcome
    rw [failed] at whole_outcome
    rw [start_outcome]
    refine ⟨fun error' same => ?_, nofun, nofun⟩
    cases same
    exact ⟨whole_outcome, whole_rest.trans rest⟩
  | ok rows =>
    obtain ⟨run, rest⟩ := goes rows rows_eq
    have same_rest : whole.rest = further.rest := whole_rest.trans (rest.trans further_rest.symm)
    rw [rows_eq] at start_outcome
    rw [run] at whole_outcome
    rw [start_outcome]
    cases more_eq : (LogReader.readBlocks recipe.metrics second 0 second start.rest).outcome with
    | error error =>
      rw [more_eq] at further_outcome whole_outcome
      rw [further_outcome]
      refine ⟨nofun, fun series error' _ same => ?_, nofun⟩
      cases same
      exact ⟨whole_outcome, same_rest⟩
    | ok more =>
      rw [more_eq] at further_outcome whole_outcome
      rw [further_outcome, whole_outcome]
      refine ⟨nofun, nofun, fun series series' same same' => ?_⟩
      cases same
      cases same'
      rw [← columns_append]
      exact ⟨map_spec_columns _ rows, map_spec_columns _ more, rfl, same_rest⟩

/-- A log of four laps, with something else in place of the fifth. -/
def fiveLaps : Log := Log.encode "12 \n\n34 \n\n56 \n\n78 \n\nfast \n\n".toList

/-- The fault in block 4 of six laps is in block 1 of the last three. -/
theorem parse_split_laps :
    ((Recipe.laps.withBlocks 3).parse ((Recipe.laps.withBlocks 3).parse fiveLaps).rest).outcome =
        .error (.notNumber 1 "ticks" .integer "fast".toList) ∧
      ((Recipe.laps.withBlocks 6).parse fiveLaps).outcome =
        .error (.notNumber 4 "ticks" .integer "fast".toList) := by
  have run : ((Recipe.laps.withBlocks 3).parse fiveLaps).outcome = .ok
      [⟨⟨"ticks", .integer, 2, .keep⟩, [.ofInt 12, .ofInt 34, .ofInt 56]⟩] := rfl
  have failed : ((Recipe.laps.withBlocks 3).parse
      ((Recipe.laps.withBlocks 3).parse fiveLaps).rest).outcome =
        .error (.notNumber 1 "ticks" .integer "fast".toList) := rfl
  obtain ⟨-, split⟩ := parse_split Recipe.laps rfl 3 3 (by decide) (by decide) fiveLaps
  obtain ⟨-, seam, -⟩ := split (by decide)
  exact ⟨failed, (seam _ _ run failed).1⟩

/-- A whole does not always fail as its first part does: for three laps the line that is missing is
what is told, but there may be no room for these and all that are to follow. -/
theorem exists_split_apart :
    ¬ ∀ (recipe : Recipe), recipe.validate = .ok () → ∀ first second : Nat,
      Recipe.leastBlocks ≤ first → Recipe.leastBlocks ≤ second →
      first + second < UInt64.size → ∀ (log : Log) (error : LogError),
        ((recipe.withBlocks first).parse log).outcome = .error error →
        ((recipe.withBlocks (first + second)).parse log).outcome = .error error := by
  intro whole
  have start : ((Recipe.laps.withBlocks 3).parse []).outcome = .error (.ended 0 "ticks") := rfl
  have failed := whole Recipe.laps rfl 3 1152921504606846976 (by decide) (by decide) (by decide) []
    _ start
  rw [Recipe.parse_of_full rfl (by decide)] at failed
  cases failed

end BenchLog
