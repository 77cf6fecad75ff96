import BenchLog.Proofs.Decimal.Significant
import BenchLog.Report.Format

/-!
# The plain report encodes the means

The plain report has a line for each mean, in order, and each line alone tells its mean
(`Summary.report_plain`): it is read back as the mean, and for a finite mean it is written out in
full with as few significant digits as any text that is read as the mean.
-/

namespace BenchLog

namespace Binary64

/-- Digits with a point between them, behind a minus or nothing. -/
def IsPointed (text : List Char) : Prop :=
  ∃ negative whole fraction, text = signText negative ++ (whole ++ '.' :: fraction) ∧
    whole ≠ [] ∧ fraction ≠ [] ∧ (∀ c ∈ whole, c.isDigit = true) ∧ ∀ c ∈ fraction, c.isDigit = true

/-- A line that tells a double. -/
structure Tells (line : List Char) (x : Binary64) : Prop where
  single : '\n' ∉ line
  read : ∃ y, read? line = some y ∧ (y = x ∨ x.isNaN = true ∧ y.isNaN = true)
  pointed : x.isFinite = true → IsPointed line
  fewest : x.isFinite = true → ∀ text, read? text = some x →
    (significantDigits line).length ≤ (significantDigits text).length

theorem isPointed_readable {x : Binary64} (finite : x.magnitude < infinityMagnitude) :
    IsPointed x.readable := by
  have nonempty := (Decimal.shortest .up x.magnitude).pointParts_ne_nil
  have digits := (Decimal.shortest .up x.magnitude).pointParts_digits
  exact ⟨x.negative, _, _, readable_of_finite finite, nonempty.1, nonempty.2, digits.1, digits.2⟩

theorem newLine_notMem_readable (x : Binary64) : '\n' ∉ x.readable :=
  newLine_notMem_written (fun m => (Decimal.shortest .up m).newLine_notMem_pointedAlways) x

theorem tells_readable (x : Binary64) : Tells x.readable x where
  single := newLine_notMem_readable x
  read := read?_readable x
  pointed finite := isPointed_readable (isFinite_iff.1 finite)
  fewest finite _ run := length_significantDigits_readable_le (isFinite_iff.1 finite) run

end Binary64

theorem Summary.report_plain (summary : Summary) :
    ∃ lines, summary.report .plain = lines.flatMap (· ++ ['\n']) ∧
      List.Forall₂ Binary64.Tells lines summary.means := by
  refine ⟨summary.means.map Binary64.readable, ?_, ?_⟩
  · rw [means, List.map_map, List.flatMap_map]
    rfl
  · rw [List.forall₂_map_left_iff, List.forall₂_same]
    exact fun x _ => Binary64.tells_readable x

end BenchLog
