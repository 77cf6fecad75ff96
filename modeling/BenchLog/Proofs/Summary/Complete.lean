import BenchLog.Files.Log
import BenchLog.Proofs.Log.Layout
import BenchLog.Proofs.Recipe.Validity
import BenchLog.Proofs.Stats.Median
import BenchLog.Proofs.Stats.Trimming

/-!
# Summaries of logs that can be read

Reading gives as many samples of every metric as there are blocks, and a recipe that can be used
has blocks enough for trimming. So a log that can be read has a summary
(`Recipe.exists_summary`), and the summary is complete (`Summary.IsComplete`): it has a result for
each metric, which can be found by its name, with a sample for each block. Too few samples are never
what is wrong with a file (`summary_complete`).
-/

namespace BenchLog

/-! ## Results -/

namespace MetricResult

variable {series : Series} {result : MetricResult}

/-- What the result of a series is made of. -/
theorem ofSeries_eq_ok_iff : ofSeries series = .ok result ↔
    ∃ trimmed spread, TrimmedMean.ofSamples? series.samples = some trimmed ∧
      Spread.ofSamples? trimmed.kept = some spread ∧
      ⟨series.spec.name, series.spec.kind, trimmed.mean, trimmed.droppedMin, trimmed.droppedMax,
        spread, series.samples⟩ = result := by
  unfold ofSeries
  cases TrimmedMean.ofSamples? series.samples with
  | none => simp
  | some trimmed =>
    cases spreads : Spread.ofSamples? trimmed.kept with
    | none => simp [spreads]
    | some spread => simp [spreads]

/-- Three samples or more have a result. -/
theorem exists_ofSeries (enough : 3 ≤ series.samples.length)
    (fits : series.samples.length < UInt64.size) : ∃ result, ofSeries series = .ok result := by
  obtain ⟨trimmed, trims⟩ := TrimmedMean.exists_ofSamples? enough
  have size := TrimmedMean.length_kept trims
  obtain ⟨spread, spreads⟩ := Spread.exists_ofSamples?
    (show trimmed.kept ≠ [] from List.length_pos_iff.1 (by omega)) (by omega)
  exact ⟨_, ofSeries_eq_ok_iff.2 ⟨trimmed, spread, trims, spreads, rfl⟩⟩

/-- A result is that of the metric and the samples of a series; two samples are dropped. -/
theorem of_ofSeries (run : ofSeries series = .ok result) :
    result.name = series.spec.name ∧ result.kind = series.spec.kind ∧
      result.samples = series.samples ∧ result.spread.count + 2 = series.samples.length := by
  obtain ⟨trimmed, spread, trims, spreads, rfl⟩ := ofSeries_eq_ok_iff.1 run
  refine ⟨rfl, rfl, rfl, ?_⟩
  dsimp only
  rw [Spread.count_of_ofSamples? spreads, TrimmedMean.length_kept trims]

end MetricResult

/-- Where every series has a result, these are the results. -/
theorem exists_resultsOf {series : List Series}
    (each : ∀ s ∈ series, ∃ result, MetricResult.ofSeries s = .ok result) :
    ∃ results, resultsOf series = (results, .ok ()) ∧
      series.map MetricResult.ofSeries = results.map .ok := by
  induction series with
  | nil => exact ⟨[], rfl, rfl⟩
  | cons s series ih =>
    obtain ⟨result, run⟩ := each s List.mem_cons_self
    obtain ⟨results, runs, all⟩ := ih fun s' member => each s' (List.mem_cons_of_mem s member)
    refine ⟨result :: results, ?_, ?_⟩
    · rw [resultsOf, run, runs]
    · rw [List.map_cons, List.map_cons, run, all]

section Results

variable {series : List Series} {results : List MetricResult}
  (all : series.map MetricResult.ofSeries = results.map .ok)

include all

theorem exists_result_at {column : Nat} {s : Series} (at_ : series[column]? = some s) :
    ∃ result, results[column]? = some result ∧ MetricResult.ofSeries s = .ok result := by
  have same := congrArg (·[column]?) all
  simp only [List.getElem?_map, at_, Option.map_some] at same
  obtain ⟨result, there, run⟩ := Option.map_eq_some_iff.1 same.symm
  exact ⟨result, there, run.symm⟩

theorem exists_series_at {column : Nat} {result : MetricResult}
    (at_ : results[column]? = some result) :
    ∃ s, series[column]? = some s ∧ MetricResult.ofSeries s = .ok result := by
  have same := congrArg (·[column]?) all
  simp only [List.getElem?_map, at_, Option.map_some] at same
  exact Option.map_eq_some_iff.1 same

/-- What a result has of its series, the results have of theirs. -/
theorem map_results {α : Type} {f : MetricResult → α} {g : Series → α}
    (each : ∀ s result, MetricResult.ofSeries s = .ok result → f result = g s) :
    results.map f = series.map g := by
  apply List.ext_getElem?
  intro column
  rw [List.getElem?_map, List.getElem?_map]
  cases at_ : series[column]? with
  | some s =>
    obtain ⟨result, there, run⟩ := exists_result_at all at_
    rw [there, Option.map_some, Option.map_some, each s result run]
  | none =>
    cases there : results[column]? with
    | none => rfl
    | some result =>
      obtain ⟨s, at', -⟩ := exists_series_at all there
      rw [at_] at at'
      cases at'

end Results

/-! ## Complete summaries -/

/-- The summary holds a result for each metric of the recipe, made of a sample for each block: that
of the metric's line. -/
structure Summary.IsComplete (summary : Summary) (recipe : Recipe) (log : Log) : Prop where
  blocks : summary.blocks = recipe.blocks
  metrics : summary.metrics.map (fun result => (result.name, result.kind)) =
    recipe.metrics.map fun spec => (spec.name, spec.kind)
  distinct : (summary.metrics.map (·.name)).Nodup
  found {column : Nat} {spec : MetricSpec} : recipe.metrics[column]? = some spec →
    ∃ result, summary.metrics[column]? = some result ∧ summary.metric? spec.name = some result
  samples {column : Nat} {spec : MetricSpec} {result : MetricResult} :
    recipe.metrics[column]? = some spec → summary.metrics[column]? = some result →
    result.samples.map some = (List.range recipe.blocks).map fun block =>
      log.lines[recipe.lineNumber block column]?.bind spec.ofLine?
  kept {column : Nat} {result : MetricResult} : summary.metrics[column]? = some result →
    result.samples.length = recipe.blocks ∧ result.spread.count = recipe.blocks - 2

/-- Among results of different names, each is found by its own. -/
theorem find?_name_of_nodup {results : List MetricResult} (distinct : (results.map (·.name)).Nodup)
    {column : Nat} {result : MetricResult} (at_ : results[column]? = some result) :
    results.find? (fun other => decide (other.name = result.name)) = some result := by
  obtain ⟨inside, rfl⟩ := List.getElem?_eq_some_iff.1 at_
  rw [List.find?_eq_some_iff_getElem]
  refine ⟨by simp, column, inside, rfl, fun earlier before => ?_⟩
  have differ := List.pairwise_iff_getElem.1 distinct earlier column (by simp; omega) (by simpa)
    before
  simpa using differ

namespace Recipe

variable {recipe : Recipe} {log : Log} {series : List Series}

/-- A log that can be read has a summary, and that is complete. -/
theorem exists_summary (fits : recipe.blocks < UInt64.size)
    (run : (recipe.read log).outcome = .ok series) :
    ∃ summary, (Summary.ofSeries recipe series).2 = .ok summary ∧ summary.recipe = recipe.name ∧
      summary.source = none ∧ summary.IsComplete recipe log ∧
      series.map MetricResult.ofSeries = summary.metrics.map .ok := by
  have valid := validate_of_read run
  obtain ⟨-, enough, distinct⟩ := validate_eq_ok_iff.1 valid
  have gives := gives_of_outcome_eq_ok valid run
  obtain ⟨results, runs, all⟩ := exists_resultsOf fun s member =>
    MetricResult.exists_ofSeries (by rwa [gives.length_samples member])
      (by rwa [gives.length_samples member])
  have metrics : results.map (fun result => (result.name, result.kind)) =
      recipe.metrics.map fun spec => (spec.name, spec.kind) := by
    rw [← gives.specs, List.map_map]
    apply map_results all
    intro s result run
    obtain ⟨name, kind, -⟩ := MetricResult.of_ofSeries run
    rw [name, kind]
    rfl
  have names : results.map (·.name) = recipe.metrics.map (·.name) := by
    have firsts := congrArg (List.map Prod.fst) metrics
    rwa [List.map_map, List.map_map] at firsts
  refine ⟨{ recipe := recipe.name, blocks := recipe.blocks, metrics := results }, ?_, rfl, rfl,
    ?_, all⟩
  · rw [Summary.ofSeries, runs]
    rfl
  constructor
  · rfl
  · exact metrics
  · rwa [names]
  · intro column spec metric
    rw [← gives.specs, List.getElem?_map] at metric
    obtain ⟨s, at_, rfl⟩ := Option.map_eq_some_iff.1 metric
    obtain ⟨result, there, run⟩ := exists_result_at all at_
    refine ⟨result, there, ?_⟩
    rw [← (MetricResult.of_ofSeries run).1]
    exact find?_name_of_nodup (by rwa [names]) there
  · intro column spec result metric there
    obtain ⟨s, at_, run⟩ := exists_series_at all there
    rw [gives.metric at_, Option.some.injEq] at metric
    subst metric
    rw [(MetricResult.of_ofSeries run).2.2.1]
    exact gives.samples at_
  · intro column result there
    obtain ⟨s, at_, run⟩ := exists_series_at all there
    obtain ⟨-, -, samples, count⟩ := MetricResult.of_ofSeries run
    have size := gives.length_samples (List.mem_of_getElem? at_)
    rw [samples]
    exact ⟨size, by omega⟩

/-- A file with a log that can be parsed has a summary. -/
theorem exists_ofOpened (path : String) (run : (recipe.parse log).outcome = .ok series) :
    ∃ summary, (Summary.ofOpened recipe path (.ok (.contents log))).2 = .ok summary := by
  obtain ⟨room, read⟩ := parse_eq_ok_iff.1 run
  obtain ⟨summary, summarized, -⟩ := exists_summary room.lt read
  have reads : (recipe.readOpened path (.ok (.contents log))).2 = .ok series := by
    show (recipe.parse log).outcome.mapError (LogError.inFile path) = .ok series
    rw [run]
    rfl
  refine ⟨{ summary with source := some path }, ?_⟩
  unfold Summary.ofOpened
  dsimp only
  rw [reads]
  dsimp only
  rw [summarized]
  rfl

end Recipe

/-! ## Too few samples -/

/-- The failure is not that of a metric with too few samples. -/
def LogError.NotTooFew (error : LogError) : Prop :=
  ∀ metric count, error ≠ .tooFewSamples metric count

theorem Recipe.notTooFew_parse {recipe : Recipe} {log : Log} {error : LogError}
    (failed : (recipe.parse log).outcome = .error error) : error.NotTooFew := by
  cases valid : recipe.validate with
  | error fault =>
    rw [parse_of_unusable valid] at failed
    cases failed
    exact nofun
  | ok =>
    by_cases room : HasRoom recipe.blocks
    · rw [parse_eq_read room] at failed
      rintro metric count rfl
      cases isOfLine_of_outcome_eq_error valid failed
    · rw [parse_of_full valid room] at failed
      cases failed
      exact nofun

theorem LogError.notTooFew_inFile {error : LogError} (other : error.NotTooFew) (path : String) :
    (error.inFile path).NotTooFew := by
  intro metric count few
  cases error <;> first | exact other metric count few | cases few

/-- Reading a file gives what parsing a log gives, or fails for another reason. -/
theorem Recipe.readOpened_cases (recipe : Recipe) (path : String)
    (opened : Except FileError Opened) :
    (∃ error, (recipe.readOpened path opened).2 = .error error ∧ error.NotTooFew) ∨
      ∃ log series, (recipe.parse log).outcome = .ok series ∧
        (recipe.readOpened path opened).2 = .ok series := by
  cases opened with
  | error cause => exact Or.inl ⟨.unopened path cause, rfl, nofun⟩
  | ok opened =>
    cases opened with
    | contents log =>
      have same : (recipe.readOpened path (.ok (.contents log))).2 =
          (recipe.parse log).outcome.mapError (.inFile path) := rfl
      rw [same]
      cases run : (recipe.parse log).outcome with
      | ok series => exact Or.inr ⟨log, series, run, rfl⟩
      | error error =>
        exact Or.inl ⟨_, rfl, LogError.notTooFew_inFile (notTooFew_parse run) path⟩
    | broken cause =>
      have same : (recipe.readOpened path (.ok (.broken cause))).2 =
          ((recipe.readFrom (.broken cause)).2).mapError (.inFile path) := rfl
      rw [same, readFrom]
      cases recipe.validate with
      | ok =>
        refine Or.inl ⟨_, rfl, LogError.notTooFew_inFile ?_ path⟩
        split <;> exact nofun
      | error fault => exact Or.inl ⟨.unusableRecipe fault, rfl, nofun⟩

/-- A log that can be read has a summary, and that is complete; so no file fails to be summarized
because of too few samples. Block counts are machine words. -/
theorem summary_complete (recipe : Recipe) (fits : recipe.blocks < UInt64.size) :
    (∀ (log : Log) (series : List Series), (recipe.read log).outcome = .ok series →
      ∃ summary, (Summary.ofSeries recipe series).2 = .ok summary ∧
        summary.IsComplete recipe log) ∧
    ∀ (path : String) (opened : Except FileError Opened) (metric : String) (count : Nat),
      (Summary.ofOpened recipe path opened).2 ≠ .error (.tooFewSamples metric count) := by
  constructor
  · intro log series run
    obtain ⟨summary, summarized, -, -, complete, -⟩ := Recipe.exists_summary fits run
    exact ⟨summary, summarized, complete⟩
  · intro path opened metric count few
    unfold Summary.ofOpened at few
    dsimp only at few
    rcases recipe.readOpened_cases path opened with ⟨error, failed, other⟩ | ⟨log, series, run, read⟩
    · rw [failed, Except.error.injEq] at few
      exact other metric count few
    · obtain ⟨summary, summarized, -⟩ :=
        Recipe.exists_summary fits (Recipe.parse_eq_ok_iff.1 run).2
      rw [read] at few
      dsimp only at few
      rw [summarized] at few
      cases few

/-- A summary of three laps keeps one of them and is found by its name. -/
theorem summary_complete_laps :
    ∃ summary, (Summary.ofSeries Recipe.laps
        [⟨⟨"ticks", .integer, 2, .keep⟩, [.ofInt 12, .ofInt 34, .ofInt 56]⟩]).2 = .ok summary ∧
      (∃ result, summary.metric? "ticks" = some result ∧ result.spread.count = 1) := by
  have run : (Recipe.laps.read (Log.encode "12 \n\n34 \n\n56 \n\n".toList)).outcome = .ok
      [⟨⟨"ticks", .integer, 2, .keep⟩, [.ofInt 12, .ofInt 34, .ofInt 56]⟩] := rfl
  obtain ⟨summary, summarized, complete⟩ := (summary_complete Recipe.laps (by decide)).1 _ _ run
  obtain ⟨result, there, found⟩ := complete.found (show Recipe.laps.metrics[0]? = some _ from rfl)
  exact ⟨summary, summarized, result, found, (complete.kept there).2⟩

end BenchLog
