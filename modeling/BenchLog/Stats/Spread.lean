import BenchLog.Binary64.Arithmetic
import BenchLog.Binary64.Order

/-!
# Percentiles and spread

A percentile is interpolated linearly between the two samples nearest to its rank. A `Spread`
holds least, middle and greatest sample, mean, standard deviation and count.
-/

namespace BenchLog

open Binary64

def hundred : Binary64 := ofNat 100

/-- The rank of the `p`-th percentile among so many samples, counted from 0. -/
def percentileRank (count : Nat) (p : Binary64) : Binary64 :=
  mul (div p hundred) (ofNat (count - 1))

/-- The value of a rank among ascending samples: the sample of that rank, or a point on the line
between the samples of the ranks below and above. -/
def atRank? (ascending : List Binary64) (rank : Binary64) : Option Binary64 :=
  if rank.floor = rank.ceil then ascending[rank.floor]?
  else do
    let lower ← ascending[rank.floor]?
    let upper ← ascending[rank.ceil]?
    return add lower (mul (sub rank (ofNat rank.floor)) (sub upper lower))

/-- The `p`-th percentile. There is none without samples, or if `p` is not from 0 to 100. -/
def percentile? (samples : List Binary64) (p : Binary64) : Option Binary64 :=
  if samples.isEmpty || !(le zero p && le p hundred) then none
  else
    let ascending := sorted samples
    if ascending.length = 1 then ascending[0]?
    else atRank? ascending (percentileRank ascending.length p)

/-- How far samples lie apart. -/
structure Spread where
  min : Binary64
  /-- The median. -/
  p50 : Binary64
  max : Binary64
  mean : Binary64
  /-- The standard deviation of a sample: squares are averaged over one less than the count. -/
  stdDev : Binary64
  count : Nat
  deriving DecidableEq

namespace Spread

/-- The mean as the sum divided by the count. -/
def meanOf (samples : List Binary64) : Binary64 := div (sum samples) (ofNat samples.length)

/-- The variance of a sample about its mean; of one sample it is zero. -/
def varianceOf (samples : List Binary64) (mean : Binary64) : Binary64 :=
  if 1 < samples.length then
    let squares := samples.map fun x => mul (sub x mean) (sub x mean)
    div (sum squares) (ofNat (samples.length - 1))
  else zero

/-- The spread of the samples, if there are any. -/
def ofSamples? (samples : List Binary64) : Option Spread := do
  let ascending := sorted samples
  let min ← ascending.head?
  let max ← ascending.getLast?
  let p50 ← percentile? ascending (ofNat 50)
  let mean := meanOf ascending
  return {
    min, p50, max, mean
    stdDev := sqrt (varianceOf ascending mean)
    count := ascending.length }

/-- The standard deviation relative to the mean, infinite for a mean of zero. -/
def coefficientOfVariation (spread : Spread) : Binary64 :=
  if eq spread.mean zero then infinity else div spread.stdDev spread.mean.abs

end Spread

end BenchLog
