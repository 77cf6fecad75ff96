import BenchLog.Proofs.Json.Doubles
import BenchLog.Proofs.Json.Records
import BenchLog.Proofs.Report.Numbers
import BenchLog.Report.Format

/-!
# JSON reports read back

Reading a JSON report gives the summary that was written, with every double replaced by what it
comes back as (`ofJson?_json`): names, kinds, counts of 64 bits, the source and the order of
everything are kept. So a summary comes back exactly if each of its doubles does
(`ofJson?_report`), which a double that is written short always does.
-/

namespace BenchLog

open Json (Written)

/-- What a double comes back as from its document. -/
def Binary64.reread? (x : Binary64) : Option Binary64 := ofDocument? x.document

/-- The double is written with digits and a power of ten that are doubles. -/
def Binary64.IsWrittenShort (x : Binary64) : Prop :=
  ∃ n ∈ Json.Number.ofBinary64? x, n.IsShort

instance (x : Binary64) : Decidable x.IsWrittenShort := Option.decidableExistsMem _

theorem Binary64.reread?_of_isWrittenShort {x : Binary64} (short : x.IsWrittenShort) :
    x.reread? = some x := by
  obtain ⟨n, written, short⟩ := short
  rw [reread?, document, written]
  exact Json.Number.toBinary64?_of_isShort written short

/-! ## Documents that are written -/

theorem Binary64.written_document (x : Binary64) : Written x.document := by
  unfold document Json.Number.ofBinary64?
  split
  · next n written =>
    split at written
    · obtain rfl := Option.some.inj written
      exact .number (Json.wellFormed_ofDecimal _ (Decimal.exponent_shortest .even))
    · cases written
  · exact .null

theorem Spread.written_document (spread : Spread) : Written spread.document := by
  apply Written.record
  simp only [List.forall_mem_cons]
  exact ⟨spread.min.written_document, spread.p50.written_document, spread.max.written_document,
    spread.mean.written_document, spread.stdDev.written_document, Json.written_natural _,
    fun member mem => nomatch mem⟩

theorem MetricResult.written_document (result : MetricResult) : Written result.document := by
  apply Written.record
  simp only [List.forall_mem_cons]
  exact ⟨.string _, .string _, result.mean.written_document, result.droppedMin.written_document,
    result.droppedMax.written_document, result.spread.written_document,
    .map Binary64.written_document _, fun member mem => nomatch mem⟩

theorem Summary.written_document (summary : Summary) : Written summary.document := by
  have metrics : Written (.array (summary.metrics.map MetricResult.document)) :=
    .map MetricResult.written_document _
  apply Written.record
  simp only [List.forall_mem_append, List.forall_mem_cons]
  refine ⟨⟨⟨.string _, fun member mem => nomatch mem⟩, ?_⟩, Json.written_natural _, metrics,
    fun member mem => nomatch mem⟩
  cases summary.source with
  | none => exact fun member mem => nomatch mem
  | some source =>
    rw [List.forall_mem_singleton]
    exact .string source

/-! ## Documents taken apart -/

@[simp] theorem sourceOfDocument?_none : sourceOfDocument? none = some none := rfl

@[simp] theorem sourceOfDocument?_text (s : String) :
    sourceOfDocument? (some (.text s)) = some (some s) := rfl

@[simp] theorem NumericKind.ofDocument?_word (kind : NumericKind) :
    ofDocument? (.text kind.word) = some kind := ofWord?_word kind

@[simp] theorem Binary64.ofDocument?_document (x : Binary64) : ofDocument? x.document = x.reread? :=
  rfl

theorem countOfDocument?_natural {n : Nat} (fits : n < UInt64.size) :
    countOfDocument? (.natural n) = some n := by
  unfold countOfDocument? Json.natural Json.Number.toNat?
  simp [fits]

theorem Spread.ofDocument?_document {spread : Spread} (fits : spread.count < UInt64.size) :
    ofDocument? spread.document = spread.mapNumbers? Binary64.reread? := by
  rw [ofDocument?, document, Json.fields?_record]
  · simp [List.lookup_cons, countOfDocument?_natural fits, mapNumbers?]
  · show ["min", "p50", "max", "mean", "std_dev", "count"].Nodup
    decide

theorem MetricResult.ofDocument?_document {result : MetricResult}
    (fits : result.spread.count < UInt64.size) :
    ofDocument? result.document = result.mapNumbers? Binary64.reread? := by
  have samples := Json.mapM_document fun x (_ : x ∈ result.samples) => x.ofDocument?_document
  rw [ofDocument?, document, Json.fields?_record]
  · simp [List.lookup_cons, Spread.ofDocument?_document fits, mapNumbers?, samples, -List.mapM_map]
  · show ["name", "kind", "mean", "dropped_min", "dropped_max", "spread", "samples"].Nodup
    decide

theorem Summary.ofDocument?_document {summary : Summary}
    (fits : ∀ n ∈ summary.counts, n < UInt64.size) :
    ofDocument? summary.document = summary.mapNumbers? Binary64.reread? := by
  rw [counts, List.forall_mem_cons] at fits
  have metrics := Json.mapM_document fun result (mem : result ∈ summary.metrics) =>
    MetricResult.ofDocument?_document (fits.2 _ (List.mem_map_of_mem mem))
  rw [ofDocument?, document]
  cases source : summary.source with
  | none =>
    rw [Json.fields?_record]
    · simp [List.lookup_cons, countOfDocument?_natural fits.1, mapNumbers?, metrics, source,
        -List.mapM_map]
    · show ["recipe", "blocks", "metrics"].Nodup
      decide
  | some source =>
    rw [Json.fields?_record]
    · simp [List.lookup_cons, countOfDocument?_natural fits.1, mapNumbers?, metrics, source,
        -List.mapM_map]
    · show ["recipe", "source", "blocks", "metrics"].Nodup
      decide

/-- Reading a JSON report gives back the summary, but for its doubles, which are read again one by
one. -/
theorem Summary.ofJson?_json (layout : Json.Layout) {summary : Summary}
    (fits : ∀ n ∈ summary.counts, n < UInt64.size) :
    ofJson? (summary.json layout) = summary.mapNumbers? Binary64.reread? := by
  have text : Json.read? (summary.document.render layout ++ ['\n']) = some summary.document :=
    Json.read?_render layout summary.written_document fun c mem => by
      rw [List.mem_singleton.1 mem]
      rfl
  rw [ofJson?, json, text, Option.bind_eq_bind, Option.bind_some, ofDocument?_document fits]

/-! ## Reports -/

/-- A JSON report, compact or indented, gives back the summary with each double read again. So the
summary comes back exactly if each of its doubles does, as those do that are written short. -/
theorem Summary.ofJson?_report {summary : Summary} {format : Format}
    (json : format = .json ∨ format = .jsonPretty) (fits : ∀ n ∈ summary.counts, n < UInt64.size) :
    ofJson? (summary.report format) = summary.mapNumbers? Binary64.reread? ∧
      (ofJson? (summary.report format) = some summary ↔
        ∀ x ∈ summary.numbers, x.reread? = some x) ∧
      ((∀ x ∈ summary.numbers, x.IsWrittenShort) →
        ofJson? (summary.report format) = some summary) := by
  have back : ofJson? (summary.report format) = summary.mapNumbers? Binary64.reread? := by
    rcases json with rfl | rfl
    · exact ofJson?_json .compact fits
    · exact ofJson?_json .indented fits
  rw [back, mapNumbers?_eq_self_iff]
  exact ⟨rfl, Iff.rfl, fun short x mem => Binary64.reread?_of_isWrittenShort (short x mem)⟩

/-- The summary of three laps of as many ticks. -/
def Summary.evenLaps (ticks : Binary64) : Summary where
  recipe := "laps"
  blocks := 3
  metrics := [{
    name := "ticks"
    kind := .integer
    mean := ticks
    droppedMin := ticks
    droppedMax := ticks
    spread := {
      min := ticks
      p50 := ticks
      max := ticks
      mean := ticks
      stdDev := .zero
      count := 1 }
    samples := [ticks, ticks, ticks] }]

/-- Laps of twelve ticks come back. -/
theorem Summary.ofJson?_report_twelve :
    ofJson? ((evenLaps (.ofNat 12)).report .jsonPretty) = some (evenLaps (.ofNat 12)) :=
  (ofJson?_report (Or.inr rfl) (by decide)).2.2 (by decide +kernel)

/-- `2 ^ 53 - 1`, which is written with seventeen digits. -/
def Binary64.greatestOdd : Binary64 := ⟨false, 1076 * binade - 1, by decide⟩

/-- It comes back as the double below: its seventeen digits are rounded first, and the tenth of
them again. -/
theorem Binary64.reread?_greatestOdd :
    greatestOdd.reread? = some ⟨false, 1076 * binade - 2, by decide⟩ := by
  have written : Json.Number.ofBinary64? greatestOdd =
      some { whole := "9007199254740991".toList, fraction := ['0'] } := by decide +kernel
  have divided : (ofNat 90071992547409910).div (Json.Number.powerOfTen 1) =
      ⟨false, 1076 * binade - 2, by decide⟩ := by decide +kernel
  have size (n : Json.Number) (value : n.decimal = ⟨90071992547409910, -1⟩)
      (plain : n.exponent = none) :
      n.size? = some ⟨false, 1076 * binade - 2, by decide⟩ := by
    rw [Json.Number.size?_of_lt (by rw [value]; decide) (by rw [plain]; decide), value,
      Json.Number.scaled?, if_pos (by decide), if_neg (by decide)]
    exact congrArg some divided
  rw [reread?, document, written]
  dsimp only [ofDocument?, Json.Number.toBinary64?]
  rw [size _ (by decide) rfl]
  rfl

/-- Laps of `2 ^ 53 - 1` ticks do not come back. -/
theorem Summary.exists_report_not_read_back :
    ∃ summary : Summary, (∀ n ∈ summary.counts, n < UInt64.size) ∧
      (∀ x ∈ summary.numbers, x.isFinite = true) ∧
      ofJson? (summary.report .json) ≠ some summary ∧
      ofJson? (summary.report .jsonPretty) ≠ some summary := by
  have fits : ∀ n ∈ (evenLaps .greatestOdd).counts, n < UInt64.size := by decide
  have drifts : (evenLaps .greatestOdd).mapNumbers? Binary64.reread? ≠
      some (evenLaps .greatestOdd) := by
    rw [ne_eq, mapNumbers?_eq_self_iff]
    intro kept
    have same := kept .greatestOdd (by decide)
    rw [Binary64.reread?_greatestOdd] at same
    exact absurd same (by decide)
  refine ⟨evenLaps .greatestOdd, fits, by decide, ?_, ?_⟩
  · exact fun back => drifts ((ofJson?_json .compact fits).symm.trans back)
  · exact fun back => drifts ((ofJson?_json .indented fits).symm.trans back)

end BenchLog
