import BenchLog.Binary64.Arithmetic
import BenchLog.Binary64.Order

/-!
# Trimmed means

The samples of a metric are sorted in the total order, the least and the greatest are dropped,
and the rest is averaged. `trimExtremes?` gives what is kept, `TrimmedMean.ofSamples?` the mean
and the dropped samples as well. Both need three samples.
-/

namespace BenchLog

open Binary64

/-- The samples in ascending order, without one least and one greatest sample. -/
def trimExtremes? (samples : List Binary64) : Option (List Binary64) :=
  if samples.length < 3 then none else some (sorted samples).dropLast.tail

structure TrimmedMean where
  mean : Binary64
  droppedMin : Binary64
  droppedMax : Binary64
  /-- The samples that are left, ascending. -/
  kept : List Binary64
  deriving DecidableEq

namespace TrimmedMean

/-- The mean of ascending samples, of which `first` is the first. Equal samples are their own
mean. Otherwise the sum is divided by the count; if the sum is not finite, each sample is divided
before they are added, so that the mean can be finite although the sum is not. -/
def meanOf (first : Binary64) (more : List Binary64) : Binary64 :=
  let kept := first :: more
  let count := ofNat kept.length
  if eq first (more.getLastD first) then first
  else
    let total := sum kept
    if total.isFinite then div total count else sum (kept.map fun x => div x count)

def ofSorted? : List Binary64 → Option TrimmedMean
  | low :: first :: third :: rest =>
    let more := (third :: rest).dropLast
    some {
      mean := meanOf first more
      droppedMin := low
      droppedMax := (third :: rest).getLast (by simp)
      kept := first :: more }
  | _ => none

/-- Trims the samples and averages what is left. -/
def ofSamples? (samples : List Binary64) : Option TrimmedMean := ofSorted? (sorted samples)

end TrimmedMean

end BenchLog
