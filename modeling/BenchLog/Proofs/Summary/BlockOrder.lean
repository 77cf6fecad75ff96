import BenchLog.Proofs.Log.BlockOrder
import BenchLog.Proofs.Summary.Complete
import BenchLog.Report.Format

/-!
# Summaries and the order of the blocks

Trimming sorts the samples of a metric in an order that tells any two patterns apart, so a result
has the same figures whatever order its samples come in (`MetricResult.ofSeries_of_perm`). Neither
the plain report nor the table shows a sample (`Summary.plain_withoutSamples`,
`Summary.table_withoutSamples`). So when the blocks of a log change places, these reports stay as
they are, and so does everything in the results but the order of the samples (`summary_permuted`).
-/

namespace BenchLog

/-- A result only depends on the samples, not on their order. -/
theorem MetricResult.ofSeries_of_perm {series series' : Series} {result : MetricResult}
    (run : ofSeries series = .ok result) (spec : series'.spec = series.spec)
    (same : series'.samples.Perm series.samples) :
    ofSeries series' = .ok { result with samples := series'.samples } := by
  obtain ⟨trimmed, spread, trims, spreads, rfl⟩ := ofSeries_eq_ok_iff.1 run
  refine ofSeries_eq_ok_iff.2 ⟨trimmed, spread, ?_, spreads, by rw [spec]⟩
  rw [TrimmedMean.ofSamples?_eq_of_perm same, trims]

namespace Summary

/-- The summary without its raw samples. -/
def withoutSamples (summary : Summary) : Summary :=
  { summary with metrics := summary.metrics.map fun result => { result with samples := [] } }

theorem plain_withoutSamples (summary : Summary) : summary.withoutSamples.plain = summary.plain :=
  List.flatMap_map ..

theorem table_withoutSamples (summary : Summary) : summary.withoutSamples.table = summary.table := by
  have width : Table.nameWidth summary.withoutSamples = Table.nameWidth summary := by
    rw [Table.nameWidth, withoutSamples, List.map_map]
    rfl
  have rows : summary.withoutSamples.metrics.flatMap (Table.metricRow (Table.nameWidth summary)) =
      summary.metrics.flatMap (Table.metricRow (Table.nameWidth summary)) := List.flatMap_map ..
  unfold table
  dsimp only
  rw [width, rows]
  rfl

/-- Summaries that only differ in their samples have the same reports for people. -/
theorem report_eq_of_withoutSamples {summary summary' : Summary}
    (same : summary'.withoutSamples = summary.withoutSamples) (source : Option String) :
    report .plain { summary' with source } = report .plain { summary with source } ∧
      report .console { summary' with source } = report .console { summary with source } := by
  have sourced : withoutSamples { summary' with source } = withoutSamples { summary with source } :=
    congrArg (fun summary : Summary => { summary with source }) same
  constructor
  · exact (plain_withoutSamples _).symm.trans ((congrArg plain sourced).trans
      (plain_withoutSamples _))
  · exact (table_withoutSamples _).symm.trans ((congrArg table sourced).trans
      (table_withoutSamples _))

end Summary

section Blocks

variable {recipe : Recipe} {blocks : Fin recipe.blocks → List (List UInt8)}
  {order : Equiv.Perm (Fin recipe.blocks)} {series series' : List Series}
  {results results' : List MetricResult}

/-- The results of a metric differ in nothing but the order of the samples. -/
theorem Recipe.result_permuted (complete : ∀ b, recipe.IsBlock (blocks b))
    (gives : recipe.Gives (Log.ofBlocks blocks).lines series)
    (gives' : recipe.Gives (Log.ofBlocks (blocks ∘ order)).lines series')
    (all : series.map MetricResult.ofSeries = results.map .ok)
    (all' : series'.map MetricResult.ofSeries = results'.map .ok) {column : Nat}
    {result result' : MetricResult} (there : results[column]? = some result)
    (there' : results'[column]? = some result') :
    result' = { result with samples := result'.samples } ∧
      ∀ b : Fin recipe.blocks, result'.samples[b.val]? = result.samples[(order b).val]? := by
  obtain ⟨s, at_, run⟩ := exists_series_at all there
  obtain ⟨s', at', run'⟩ := exists_series_at all' there'
  obtain ⟨spec, places⟩ := gives.permuted complete order gives' at_ at'
  have same : s'.samples.Perm s.samples :=
    perm_of_getElem?_eq (gives.length_samples (List.mem_of_getElem? at_))
      (gives'.length_samples (List.mem_of_getElem? at')) order places
  have samples := (MetricResult.of_ofSeries run).2.2.1
  have samples' := (MetricResult.of_ofSeries run').2.2.1
  rw [MetricResult.ofSeries_of_perm run spec same, Except.ok.injEq] at run'
  refine ⟨?_, fun b => ?_⟩
  · rw [samples', run']
  · rw [samples', samples, places b]

/-- Blocks that change places change neither whether the log can be read nor, if it can, anything
in its summary and in its reports for people, apart from the order of the raw samples. -/
theorem summary_permuted (recipe : Recipe) (valid : recipe.validate = .ok ())
    (fits : recipe.blocks < UInt64.size) (blocks : Fin recipe.blocks → List (List UInt8))
    (complete : ∀ b, recipe.IsBlock (blocks b)) (order : Equiv.Perm (Fin recipe.blocks)) :
    ((∃ series', (recipe.read (Log.ofBlocks (blocks ∘ order))).outcome = .ok series') ↔
      ∃ series, (recipe.read (Log.ofBlocks blocks)).outcome = .ok series) ∧
    ∀ series series', (recipe.read (Log.ofBlocks blocks)).outcome = .ok series →
      (recipe.read (Log.ofBlocks (blocks ∘ order))).outcome = .ok series' →
      ∃ summary summary', (Summary.ofSeries recipe series).2 = .ok summary ∧
        (Summary.ofSeries recipe series').2 = .ok summary' ∧
        (∀ source : Option String,
          Summary.report .plain { summary' with source } =
            Summary.report .plain { summary with source } ∧
          Summary.report .console { summary' with source } =
            Summary.report .console { summary with source }) ∧
        summary' = { summary with metrics := summary'.metrics } ∧
        summary'.metrics.length = summary.metrics.length ∧
        ∀ (column : Nat) (result result' : MetricResult),
          summary.metrics[column]? = some result → summary'.metrics[column]? = some result' →
          result' = { result with samples := result'.samples } ∧
          result'.samples.length = recipe.blocks ∧ result.samples.length = recipe.blocks ∧
          ∀ b : Fin recipe.blocks, result'.samples[b.val]? = result.samples[(order b).val]? := by
  constructor
  · rw [Recipe.outcome_eq_ok_iff valid, Recipe.outcome_eq_ok_iff valid]
    exact Recipe.fits_permuted_iff complete order
  intro series series' run run'
  obtain ⟨⟨name, source, count, results⟩, summarized, rfl, rfl, whole, all⟩ :=
    Recipe.exists_summary fits run
  obtain ⟨⟨name', source', count', results'⟩, summarized', rfl, rfl, whole', all'⟩ :=
    Recipe.exists_summary fits run'
  obtain rfl : count' = count := whole'.blocks.trans whole.blocks.symm
  have each : ∀ (column : Nat) (result result' : MetricResult), results[column]? = some result →
      results'[column]? = some result' → _ := fun column result result' =>
    Recipe.result_permuted complete (Recipe.gives_of_outcome_eq_ok valid run)
      (Recipe.gives_of_outcome_eq_ok valid run') all all'
  have size : results'.length = results.length := by
    simpa using congrArg List.length (whole'.metrics.trans whole.metrics.symm)
  -- Without their samples the results of both logs are the same.
  have figures : results'.map (fun result => { result with samples := [] }) =
      results.map fun result => { result with samples := [] } := by
    apply List.ext_getElem (by simpa using size)
    intro column inside' inside
    rw [List.length_map] at inside inside'
    rw [List.getElem_map, List.getElem_map, (each column _ _ (List.getElem?_eq_getElem inside)
      (List.getElem?_eq_getElem inside')).1]
  refine ⟨_, _, summarized, summarized', ?_, rfl, size, ?_⟩
  · exact Summary.report_eq_of_withoutSamples
      (congrArg (Summary.mk recipe.name none count') figures)
  · intro column result result' there there'
    obtain ⟨same, places⟩ := each column result result' there there'
    exact ⟨same, (whole'.kept there').1, (whole.kept there).1, places⟩

end Blocks

/-- A recipe of one metric that can be any double. -/
def Recipe.times : Recipe where
  name := "times"
  blocks := 3
  metrics := [⟨"seconds", .float, 1, .keep⟩]

/-- Blocks with zeros of both signs and with something that is not a number. -/
def oddTimes : Fin 3 → List (List UInt8)
  | 0 => [Log.encode "-0\n".toList, Log.encode "\n".toList]
  | 1 => [Log.encode "nan\n".toList, Log.encode "--\n".toList]
  | 2 => [Log.encode "0\n".toList, Log.encode "\n".toList]

/-- The zeros may change places. -/
theorem summary_permuted_times :
    ∃ summary summary',
      (Summary.ofSeries .times [⟨⟨"seconds", .float, 1, .keep⟩, [.negativeZero, .nan, .zero]⟩]).2 =
        .ok summary ∧
      (Summary.ofSeries .times [⟨⟨"seconds", .float, 1, .keep⟩, [.zero, .nan, .negativeZero]⟩]).2 =
        .ok summary' ∧
      Summary.report .console { summary' with source := some "times.log" } =
        Summary.report .console { summary with source := some "times.log" } ∧
      ∀ result result', summary.metrics[0]? = some result → summary'.metrics[0]? = some result' →
        result'.mean = result.mean ∧ result'.samples[0]? = result.samples[2]? := by
  have run : (Recipe.times.read (Log.ofBlocks oddTimes)).outcome =
      .ok [⟨⟨"seconds", .float, 1, .keep⟩, [.negativeZero, .nan, .zero]⟩] := rfl
  have run' : (Recipe.times.read (Log.ofBlocks (oddTimes ∘ Equiv.swap (0 : Fin 3) 2))).outcome =
      .ok [⟨⟨"seconds", .float, 1, .keep⟩, [.zero, .nan, .negativeZero]⟩] := rfl
  have complete : ∀ b : Fin 3, Recipe.times.IsBlock (oddTimes b) := by decide
  obtain ⟨summary, summary', summarized, summarized', reports, -, -, each⟩ :=
    (summary_permuted .times rfl (by decide) oddTimes complete
      (Equiv.swap (0 : Fin 3) (2 : Fin 3))).2 _ _ run run'
  refine ⟨summary, summary', summarized, summarized', (reports _).2, ?_⟩
  intro result result' there there'
  obtain ⟨same, -, -, places⟩ := each 0 result result' there there'
  exact ⟨by rw [same], places (0 : Fin 3)⟩

end BenchLog
