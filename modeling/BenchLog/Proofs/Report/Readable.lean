import BenchLog.Proofs.Binary64.Sums
import BenchLog.Proofs.Json.Range
import BenchLog.Proofs.Report.RoundTrip

/-!
# Which JSON reports can be read

A double that is not finite is written as `null` and is not read, and every other one is read as some
double. So a JSON report can be read exactly if every double in it is finite, and then it gives back
all but the doubles (`ofJson?_report_eq_none_iff`).
-/

namespace BenchLog

theorem Binary64.document_eq_null_iff {x : Binary64} : x.document = .null ↔ x.isFinite = false := by
  unfold document Json.Number.ofBinary64?
  cases x.isFinite <;> simp

theorem Binary64.isSome_reread?_iff {x : Binary64} : x.reread?.isSome ↔ x.isFinite = true := by
  cases finite : x.isFinite with
  | false =>
    rw [reread?, document_eq_null_iff.2 finite]
    exact Iff.rfl
  | true =>
    have written : Json.Number.ofBinary64? x = some _ := if_pos finite
    rw [reread?, document, written]
    exact iff_of_true (Json.Number.isSome_toBinary64? written) rfl

/-- A JSON report, compact or indented, cannot be read exactly if one of its doubles is not finite,
which is then written as `null`. What is read agrees with the summary in all but the doubles. -/
theorem Summary.ofJson?_report_eq_none_iff {summary : Summary} {format : Format}
    (json : format = .json ∨ format = .jsonPretty) (fits : ∀ n ∈ summary.counts, n < UInt64.size) :
    (ofJson? (summary.report format) = none ↔ ∃ x ∈ summary.numbers, x.isFinite = false) ∧
      (∀ x : Binary64, x.document = .null ↔ x.isFinite = false) ∧
      ∀ back, ofJson? (summary.report format) = some back → summary.Alike back := by
  have read : ofJson? (summary.report format) = summary.mapNumbers? Binary64.reread? := by
    rcases json with rfl | rfl
    · exact ofJson?_json .compact fits
    · exact ofJson?_json .indented fits
  rw [read]
  refine ⟨?_, fun x => Binary64.document_eq_null_iff, fun back => alike_of_mapNumbers?⟩
  rw [← Option.not_isSome_iff_eq_none, isSome_mapNumbers?_iff]
  simp only [Binary64.isSome_reread?_iff, not_forall, Bool.not_eq_true, exists_prop]

/-- One infinite number makes a report unreadable, and the greatest finite one does not. -/
theorem Summary.ofJson?_report_ends :
    ofJson? ((evenLaps .infinity).report .json) = none ∧
      ∃ back, ofJson? ((evenLaps .greatest).report .jsonPretty) = some back ∧
        (evenLaps .greatest).Alike back := by
  constructor
  · exact (ofJson?_report_eq_none_iff (Or.inl rfl) (by decide)).1.2
      ⟨.infinity, by decide, by decide⟩
  · obtain ⟨unread, -, alike⟩ :=
      @ofJson?_report_eq_none_iff (evenLaps .greatest) .jsonPretty (Or.inr rfl) (by decide)
    have finite : ∀ x ∈ (evenLaps .greatest).numbers, x.isFinite = true := by decide
    have read : ofJson? ((evenLaps .greatest).report .jsonPretty) ≠ none := by
      intro none
      obtain ⟨x, mem, infinite⟩ := unread.1 none
      rw [finite x mem] at infinite
      cases infinite
    obtain ⟨back, read⟩ := Option.ne_none_iff_exists'.1 read
    exact ⟨back, read, alike back read⟩

end BenchLog
