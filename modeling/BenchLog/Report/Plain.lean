import BenchLog.Summary

/-!
# The plain report

One line for each metric, in order, with its trimmed mean and nothing else.
-/

namespace BenchLog

def MetricResult.plainLine (result : MetricResult) : List Char := result.mean.readable ++ ['\n']

def Summary.plain (summary : Summary) : List Char := summary.metrics.flatMap MetricResult.plainLine

end BenchLog
