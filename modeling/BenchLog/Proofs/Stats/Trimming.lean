import BenchLog.Proofs.Binary64.Ordering
import BenchLog.Stats.Trimmed

/-!
# Sorting and trimming

The total order tells any two patterns apart, so samples have one ascending order, whatever order
they come in (`sorted_eq_of_perm`), and trimming only depends on that. As it refines the order of
values, samples in order have values in order (`signedUnits_le_of_getElem?`). Three samples or more can
be trimmed, and what is kept lies between the two that are dropped
(`TrimmedMean.split_of_ofSamples?`). A sample above all others is the one that is dropped, whichever it
is (`TrimmedMean.ofSamples?_replace_greatest`), and so is one below all others.
-/

namespace BenchLog

namespace Binary64

theorem sorted_eq_self {ascending : List Binary64}
    (order : ascending.Pairwise fun x y => totalLe x y = true) : sorted ascending = ascending :=
  List.mergeSort_of_pairwise order

theorem sorted_eq_of_perm {samples samples' : List Binary64} (same : samples.Perm samples') :
    sorted samples = sorted samples' := by
  apply List.Perm.eq_of_pairwise (fun x y _ _ => totalLe_antisymm) (pairwise_sorted samples)
    (pairwise_sorted samples')
  exact (sorted_perm samples).trans (same.trans (sorted_perm samples').symm)

section OneSample

variable {samples others : List Binary64} {x : Binary64} (same : samples.Perm (x :: others))

include same

/-- A sample above all others comes last. -/
theorem sorted_of_greatest (above : ∀ y ∈ others, totalLe y x = true) :
    sorted samples = sorted others ++ [x] := by
  have perm : samples.Perm (sorted others ++ [x]) :=
    same.trans (((sorted_perm others).symm.cons x).trans (List.perm_append_singleton x _).symm)
  rw [sorted_eq_of_perm perm]
  apply sorted_eq_self
  refine List.pairwise_append.2 ⟨pairwise_sorted others, List.pairwise_singleton _ x, ?_⟩
  intro y mem z last
  rw [List.mem_singleton.1 last]
  exact above y ((sorted_perm others).mem_iff.1 mem)

/-- A sample below all others comes first. -/
theorem sorted_of_least (below : ∀ y ∈ others, totalLe x y = true) :
    sorted samples = x :: sorted others := by
  rw [sorted_eq_of_perm (same.trans ((sorted_perm others).symm.cons x))]
  apply sorted_eq_self
  exact List.pairwise_cons.2
    ⟨fun y mem => below y ((sorted_perm others).mem_iff.1 mem), pairwise_sorted others⟩

end OneSample

end Binary64

open Binary64

/-! ## Samples in order -/

section Ordered

variable {ascending : List Binary64} {first last : Binary64}
  (order : ascending.Pairwise fun x y => totalLe x y = true)

include order

theorem signedUnits_le_of_getElem? {i j : Nat} {x y : Binary64} (le : i ≤ j)
    (x_at : ascending[i]? = some x) (y_at : ascending[j]? = some y) :
    x.signedUnits ≤ y.signedUnits := by
  obtain ⟨i_lt, rfl⟩ := List.getElem?_eq_some_iff.1 x_at
  obtain ⟨j_lt, rfl⟩ := List.getElem?_eq_some_iff.1 y_at
  rcases Nat.eq_or_lt_of_le le with rfl | lt
  · exact le_refl _
  · exact signedUnits_le_of_totalLe (List.pairwise_iff_getElem.1 order i j i_lt j_lt lt)

theorem first_le (head : ascending.head? = some first) {x : Binary64} (mem : x ∈ ascending) :
    first.signedUnits ≤ x.signedUnits := by
  obtain ⟨i, x_at⟩ := List.mem_iff_getElem?.1 mem
  rw [List.head?_eq_getElem?] at head
  exact signedUnits_le_of_getElem? order (Nat.zero_le i) head x_at

theorem le_last (tail : ascending.getLast? = some last) {x : Binary64} (mem : x ∈ ascending) :
    x.signedUnits ≤ last.signedUnits := by
  obtain ⟨i, x_at⟩ := List.mem_iff_getElem?.1 mem
  have i_lt := (List.getElem?_eq_some_iff.1 x_at).1
  rw [List.getLast?_eq_getElem?] at tail
  exact signedUnits_le_of_getElem? order (show i ≤ ascending.length - 1 by omega) x_at tail

end Ordered

/-! ## Trimming -/

namespace TrimmedMean

variable {samples : List Binary64} {trimmed : TrimmedMean} {x : Binary64}

theorem ofSamples?_eq_of_perm {samples' : List Binary64} (same : samples.Perm samples') :
    ofSamples? samples = ofSamples? samples' := by
  rw [ofSamples?, ofSamples?, sorted_eq_of_perm same]

/-- Samples that are trimmed have two ends, which are dropped, and others between them. -/
theorem of_ofSorted? {ascending : List Binary64} (run : ofSorted? ascending = some trimmed) :
    ∃ low first more high, ascending = low :: (first :: more ++ [high]) ∧
      trimmed = ⟨meanOf first more, low, high, first :: more⟩ := by
  unfold ofSorted? at run
  split at run
  · next low first third rest =>
    cases run
    refine ⟨low, first, (third :: rest).dropLast, _, ?_, rfl⟩
    rw [List.cons_append, List.dropLast_concat_getLast]
  · cases run

theorem split_of_ofSorted? {ascending : List Binary64} (run : ofSorted? ascending = some trimmed) :
    ascending = trimmed.droppedMin :: (trimmed.kept ++ [trimmed.droppedMax]) := by
  obtain ⟨low, first, more, high, rfl, rfl⟩ := of_ofSorted? run
  rfl

theorem ofSorted?_concat (low first high : Binary64) (more : List Binary64) :
    ofSorted? (low :: (first :: more ++ [high])) =
      some ⟨meanOf first more, low, high, first :: more⟩ := by
  cases more with
  | nil => rfl
  | cons second more =>
    show ofSorted? (low :: first :: second :: (more ++ [high])) = _
    simp only [ofSorted?, ← List.cons_append, List.dropLast_concat, List.getLast_concat]

/-- Other ends are dropped as well, and change nothing else. -/
theorem ofSorted?_ends {ascending : List Binary64} (run : ofSorted? ascending = some trimmed)
    (low high : Binary64) :
    ofSorted? (low :: (trimmed.kept ++ [high])) =
      some { trimmed with droppedMin := low, droppedMax := high } := by
  obtain ⟨_, first, more, _, -, rfl⟩ := of_ofSorted? run
  exact ofSorted?_concat low first high more

/-- Three samples or more can be trimmed. -/
theorem exists_ofSamples? (enough : 3 ≤ samples.length) :
    ∃ trimmed, ofSamples? samples = some trimmed := by
  rw [← length_sorted] at enough
  unfold ofSamples?
  match sorted samples, enough with
  | _ :: _ :: _ :: _, _ => exact ⟨_, rfl⟩

section Run

variable (run : ofSamples? samples = some trimmed)

include run

/-- What is kept lies between what is dropped. -/
theorem split_of_ofSamples? :
    sorted samples = trimmed.droppedMin :: (trimmed.kept ++ [trimmed.droppedMax]) :=
  split_of_ofSorted? run

theorem length_kept : trimmed.kept.length + 2 = samples.length := by
  rw [← length_sorted samples, split_of_ofSamples? run]
  simp

/-- What is kept is in order. -/
theorem pairwise_kept : trimmed.kept.Pairwise fun x y => totalLe x y = true := by
  have order := pairwise_sorted samples
  rw [split_of_ofSamples? run, List.pairwise_cons, List.pairwise_append] at order
  exact order.2.1

theorem kept_ne_nil : trimmed.kept ≠ [] := by
  obtain ⟨low, first, more, high, -, rfl⟩ := of_ofSorted? run
  exact List.cons_ne_nil first more

/-- Both ways of trimming keep the same samples. -/
theorem trimExtremes?_of_ofSamples? : trimExtremes? samples = some trimmed.kept := by
  have size := length_kept run
  have nonempty := List.length_pos_iff.2 (kept_ne_nil run)
  rw [trimExtremes?, if_neg (by omega), split_of_ofSamples? run, ← List.cons_append,
    List.dropLast_concat]
  rfl

/-- The first of the kept samples is the second of all. -/
theorem second_of_head? (first : trimmed.kept.head? = some x) : (sorted samples)[1]? = some x := by
  rw [split_of_ofSamples? run, List.getElem?_cons_succ, ← List.head?_eq_getElem?,
    List.head?_append, first]
  rfl

/-- The last of the kept samples is the last but one of all. -/
theorem lastButOne_of_getLast? (last : trimmed.kept.getLast? = some x) :
    (sorted samples)[samples.length - 2]? = some x := by
  have size := length_kept run
  have nonempty := List.length_pos_iff.2 (kept_ne_nil run)
  obtain ⟨before, count⟩ : ∃ before, trimmed.kept.length = before + 1 :=
    ⟨trimmed.kept.length - 1, by omega⟩
  rw [split_of_ofSamples? run, show samples.length - 2 = before + 1 by omega,
    List.getElem?_cons_succ, List.getElem?_append_left (by omega)]
  rwa [List.getLast?_eq_getElem?, count] at last

end Run

section OneSample

variable {samples' others : List Binary64} {x' : Binary64} (run : ofSamples? samples = some trimmed)
  (same : samples.Perm (x :: others)) (same' : samples'.Perm (x' :: others))

include run same same'

/-- A sample above all others may be any other that is. -/
theorem ofSamples?_replace_greatest (above : ∀ y ∈ others, totalLe y x = true)
    (above' : ∀ y ∈ others, totalLe y x' = true) :
    ofSamples? samples' = some { trimmed with droppedMax := x' } := by
  have split := split_of_ofSamples? run
  rw [sorted_of_greatest same above, ← List.cons_append] at split
  rw [ofSamples?, sorted_of_greatest same' above', List.append_inj_left' split rfl, List.cons_append]
  exact ofSorted?_ends run trimmed.droppedMin x'

/-- A sample below all others may be any other that is. -/
theorem ofSamples?_replace_least (below : ∀ y ∈ others, totalLe x y = true)
    (below' : ∀ y ∈ others, totalLe x' y = true) :
    ofSamples? samples' = some { trimmed with droppedMin := x' } := by
  have split := split_of_ofSamples? run
  rw [sorted_of_least same below] at split
  rw [ofSamples?, sorted_of_least same' below', (List.cons.inj split).2]
  exact ofSorted?_ends run x' trimmed.droppedMax

end OneSample

theorem ofSamples?_eq_none_iff (samples : List Binary64) :
    ofSamples? samples = none ↔ samples.length < 3 := by
  constructor
  · intro failed
    refine Nat.lt_of_not_le fun enough => ?_
    obtain ⟨trimmed, run⟩ := exists_ofSamples? enough
    rw [failed] at run
    cases run
  · intro few
    cases run : ofSamples? samples with
    | none => rfl
    | some trimmed =>
      have size := length_kept run
      have nonempty := List.length_pos_iff.2 (kept_ne_nil run)
      omega

end TrimmedMean

theorem trimExtremes?_eq_none_iff (samples : List Binary64) :
    trimExtremes? samples = none ↔ samples.length < 3 := by
  simp [trimExtremes?]

end BenchLog
