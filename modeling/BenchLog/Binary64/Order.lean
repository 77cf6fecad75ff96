import BenchLog.Binary64.Basic

/-!
# Two orders of double-precision numbers

The *total order* ranks every bit pattern: negative patterns by falling magnitude, then positive
ones by rising magnitude, so that a NaN lies beyond the infinity of its sign and `-0` just below
`+0`. It is the order of `rank`, which tells any two patterns apart, and samples are sorted by it.

The *numeric* comparisons `eq`, `lt` and `le` are those of the values: both zeros are equal, and
every comparison with a NaN is false.
-/

namespace BenchLog.Binary64

/-! ## The total order -/

/-- The place of a pattern in the total order. -/
def rank (x : Binary64) : Int :=
  if x.negative then -(x.magnitude : Int) - 1 else x.magnitude

theorem rank_injective {x y : Binary64} (h : x.rank = y.rank) : x = y := by
  obtain ⟨s, m, _⟩ := x
  obtain ⟨t, n, _⟩ := y
  cases s <;> cases t <;> simp only [rank, Bool.false_eq_true, if_true, if_false] at h
  · have : m = n := by omega
    subst this; rfl
  · omega
  · omega
  · have : m = n := by omega
    subst this; rfl

/-- Is `x` at or below `y` in the total order? -/
def totalLe (x y : Binary64) : Bool := x.rank ≤ y.rank

theorem totalLe_trans (x y z : Binary64) (h : totalLe x y = true) (h' : totalLe y z = true) :
    totalLe x z = true := by
  simp only [totalLe, decide_eq_true_eq] at *
  omega

theorem totalLe_total (x y : Binary64) : (totalLe x y || totalLe y x) = true := by
  simp only [totalLe, Bool.or_eq_true, decide_eq_true_eq]
  omega

theorem totalLe_antisymm {x y : Binary64} (h : totalLe x y = true) (h' : totalLe y x = true) :
    x = y := by
  simp only [totalLe, decide_eq_true_eq] at *
  exact rank_injective (by omega)

/-- The samples in ascending total order. -/
def sorted (samples : List Binary64) : List Binary64 := samples.mergeSort totalLe

theorem sorted_perm (samples : List Binary64) : (sorted samples).Perm samples :=
  List.mergeSort_perm samples totalLe

@[simp] theorem length_sorted (samples : List Binary64) :
    (sorted samples).length = samples.length :=
  (sorted_perm samples).length_eq

theorem pairwise_sorted (samples : List Binary64) :
    (sorted samples).Pairwise fun x y => totalLe x y = true :=
  List.pairwise_mergeSort totalLe_trans totalLe_total samples

/-! ## Numeric comparison -/

/-- Where the value of a number that is no NaN stands among such values; both zeros stand at 0. -/
def level (x : Binary64) : Int := if x.negative then -(x.magnitude : Int) else x.magnitude

/-- Have `x` and `y` the same value? Never if one is a NaN. -/
def eq (x y : Binary64) : Bool := !x.isNaN && !y.isNaN && x.level = y.level

def lt (x y : Binary64) : Bool := !x.isNaN && !y.isNaN && x.level < y.level

def le (x y : Binary64) : Bool := !x.isNaN && !y.isNaN && x.level ≤ y.level

end BenchLog.Binary64
