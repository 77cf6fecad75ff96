import BenchLog.Proofs.Stats.Ranks

/-!
# Percentiles in order

A percentile is a point between the two samples around its rank, and lies between them
(`pointAt_between`). A greater percentile lies between the same two samples and takes no smaller part of
their distance (`pointAt_mono`), or it lies between later samples (`Around.point_mono`). All of this
needs a distance that is a double. If it overflows, the percentile is an infinity
(`percentile_ordered`), above every sample and above greater percentiles
(`exists_percentile_above_samples`).
-/

namespace BenchLog

open Binary64

/-! ## Points -/

/-- The point of a rank between two samples; of a whole rank it is the lower one. -/
def pointAt (rank lower upper : Binary64) : Binary64 :=
  if rank.floor = rank.ceil then lower else interpolate lower upper (sub rank (ofNat rank.floor))

section Point

variable {count : Nat} {rank lower upper : Binary64} {rise : Nat} (is_rank : IsRank count rank)
  (few : count ≤ 2 ^ 53) (apart : Apart lower upper rise)

include is_rank few apart

theorem pointAt_between (fits : (sub upper lower).isFinite = true) :
    (pointAt rank lower upper).isNaN = false ∧
      lower.signedUnits ≤ (pointAt rank lower upper).signedUnits ∧
      (pointAt rank lower upper).signedUnits ≤ upper.signedUnits := by
  have is_part := is_rank.isPart_sub_floor few
  unfold pointAt
  split
  · have value := apart.value
    exact ⟨isNaN_of_isFinite apart.lower_finite, le_refl _, by omega⟩
  · exact ⟨isNaN_interpolate apart is_part fits, le_interpolate apart is_part fits,
      interpolate_le apart is_part fits⟩

theorem pointAt_of_overflow (between : rank.floor ≠ rank.ceil)
    (overflow : (sub upper lower).isFinite = false) : pointAt rank lower upper = infinity := by
  obtain ⟨part_finite, value⟩ := is_rank.signedUnits_part few
  rw [pointAt, if_neg between]
  apply interpolate_of_overflow apart part_finite _ overflow
  rw [value]
  exact Int.natCast_pos.2 (mod_pos_of_floor_ne_ceil between)

/-- Between the same two samples, a greater rank has no lesser point. -/
theorem pointAt_mono {rank' : Binary64} (is_rank' : IsRank count rank')
    (fits : (sub upper lower).isFinite = true) (between : rank.floor ≠ rank.ceil)
    (floor : rank'.floor = rank.floor) (ceil : rank'.ceil = rank.ceil)
    (le : rank.units ≤ rank'.units) :
    (pointAt rank lower upper).signedUnits ≤ (pointAt rank' lower upper).signedUnits := by
  rw [pointAt, pointAt, if_neg between, if_neg (by rwa [floor, ceil])]
  apply interpolate_mono apart (is_rank.isPart_sub_floor few) fits (is_rank'.isPart_sub_floor few)
  rw [(is_rank.signedUnits_part few).2, (is_rank'.signedUnits_part few).2]
  have split := Nat.div_add_mod' rank.units unitsPerOne
  have split' := Nat.div_add_mod' rank'.units unitsPerOne
  have same : rank'.units / unitsPerOne = rank.units / unitsPerOne := floor
  rw [same] at split'
  apply Int.ofNat_le.2
  omega

end Point

/-! ## Percentiles -/

/-- Is the distance between the two samples around the `p`-th percentile a double? -/
def gapFits (samples : List Binary64) (p : Binary64) : Bool :=
  let rank := percentileRank samples.length p
  match (sorted samples)[rank.floor]?, (sorted samples)[rank.ceil]? with
  | some lower, some upper => (sub upper lower).isFinite
  | _, _ => false

/-- The two samples around the `p`-th percentile. -/
structure Around (samples : List Binary64) (p lower upper : Binary64) : Prop where
  lower_at : (sorted samples)[(percentileRank samples.length p).floor]? = some lower
  upper_at : (sorted samples)[(percentileRank samples.length p).ceil]? = some upper

theorem atRank?_eq {ascending : List Binary64} {rank lower upper : Binary64}
    (lower_at : ascending[rank.floor]? = some lower) (upper_at : ascending[rank.ceil]? = some upper) :
    atRank? ascending rank = some (pointAt rank lower upper) := by
  unfold atRank? pointAt
  split
  · exact lower_at
  · rw [lower_at, upper_at]
    rfl

section Percentile

variable {samples : List Binary64} {p : Binary64} (nonempty : samples ≠ [])
  (few : samples.length ≤ 2 ^ 53) (percentage : isPercentage p = true)

include nonempty few percentage

theorem exists_around : ∃ lower upper, Around samples p lower upper := by
  have is_rank := isRank_percentileRank few percentage
  have size := List.length_pos_iff.2 nonempty
  have floor_le := is_rank.floor_le
  have ceil_le := is_rank.ceil_le
  have ascending := length_sorted samples
  exact ⟨_, _, List.getElem?_eq_getElem (by omega), List.getElem?_eq_getElem (by omega)⟩

theorem percentile?_eq {lower upper : Binary64} (around : Around samples p lower upper) :
    percentile? samples p = some (pointAt (percentileRank samples.length p) lower upper) := by
  have is_rank := isRank_percentileRank few percentage
  have floor_le := is_rank.floor_le
  have ceil_le := is_rank.ceil_le
  have inside : (le zero p && le p hundred) = true := percentage
  unfold percentile?
  rw [inside, if_neg (by simpa using nonempty)]
  dsimp only
  rw [length_sorted]
  split
  · next one =>
    have floor : (percentileRank samples.length p).floor = 0 := by omega
    have ceil : (percentileRank samples.length p).ceil = 0 := by omega
    have lower_at := around.lower_at
    rw [floor] at lower_at
    rw [lower_at, pointAt, floor, ceil, if_pos rfl]
  · exact atRank?_eq around.lower_at around.upper_at

end Percentile

namespace Around

variable {samples : List Binary64} {p lower upper : Binary64}
  (around : Around samples p lower upper)

include around

theorem gapFits_eq : gapFits samples p = (sub upper lower).isFinite := by
  simp only [gapFits, around.lower_at, around.upper_at]

theorem lower_mem : lower ∈ samples :=
  (sorted_perm samples).mem_iff.1 (List.mem_of_getElem? around.lower_at)

theorem upper_mem : upper ∈ samples :=
  (sorted_perm samples).mem_iff.1 (List.mem_of_getElem? around.upper_at)

theorem lower_le_upper : lower.signedUnits ≤ upper.signedUnits :=
  signedUnits_le_of_getElem? (pairwise_sorted samples) (floor_le_ceil _) around.lower_at
    around.upper_at

variable (finite : ∀ x ∈ samples, x.isFinite = true)

include finite

theorem exists_apart : ∃ rise, Apart lower upper rise :=
  Binary64.exists_apart (finite _ around.lower_mem) (finite _ around.upper_mem) around.lower_le_upper

variable (few : samples.length ≤ 2 ^ 53) (percentage : isPercentage p = true)

include few percentage

theorem point_between (fits : gapFits samples p = true) :
    (pointAt (percentileRank samples.length p) lower upper).isNaN = false ∧
      lower.signedUnits ≤ (pointAt (percentileRank samples.length p) lower upper).signedUnits ∧
      (pointAt (percentileRank samples.length p) lower upper).signedUnits ≤ upper.signedUnits := by
  rw [around.gapFits_eq] at fits
  obtain ⟨rise, apart⟩ := around.exists_apart finite
  exact pointAt_between (isRank_percentileRank few percentage) few apart fits

theorem point_of_overflow (overflow : gapFits samples p = false) :
    pointAt (percentileRank samples.length p) lower upper = infinity := by
  have between : (percentileRank samples.length p).floor ≠ (percentileRank samples.length p).ceil := by
    intro whole
    have upper_at := around.upper_at
    rw [← whole, around.lower_at] at upper_at
    obtain rfl : lower = upper := Option.some.inj upper_at
    rw [around.gapFits_eq, isFinite_sub_self (finite _ around.lower_mem)] at overflow
    cases overflow
  rw [around.gapFits_eq] at overflow
  obtain ⟨rise, apart⟩ := around.exists_apart finite
  exact pointAt_of_overflow (isRank_percentileRank few percentage) few apart between overflow

theorem lower_le_point : lower.signedUnits ≤
    (pointAt (percentileRank samples.length p) lower upper).signedUnits := by
  cases fits : gapFits samples p with
  | true => exact (around.point_between finite few percentage fits).2.1
  | false =>
    rw [around.point_of_overflow finite few percentage fits]
    exact signedUnits_le_infinity (finite _ around.lower_mem)

theorem isNaN_point : (pointAt (percentileRank samples.length p) lower upper).isNaN = false := by
  cases fits : gapFits samples p with
  | true => exact (around.point_between finite few percentage fits).1
  | false =>
    rw [around.point_of_overflow finite few percentage fits]
    rfl

theorem point_mono {q lower' upper' : Binary64} (around' : Around samples q lower' upper')
    (percentage' : isPercentage q = true) (le : p.units ≤ q.units) (fits : gapFits samples p = true) :
    (pointAt (percentileRank samples.length p) lower upper).signedUnits ≤
      (pointAt (percentileRank samples.length q) lower' upper').signedUnits := by
  have ranks := units_percentileRank_mono few percentage percentage' le
  by_cases later : (percentileRank samples.length p).ceil ≤ (percentileRank samples.length q).floor
  · calc (pointAt (percentileRank samples.length p) lower upper).signedUnits
        ≤ upper.signedUnits := (around.point_between finite few percentage fits).2.2
      _ ≤ lower'.signedUnits :=
        signedUnits_le_of_getElem? (pairwise_sorted samples) later around.upper_at around'.lower_at
      _ ≤ (pointAt (percentileRank samples.length q) lower' upper').signedUnits :=
        around'.lower_le_point finite few percentage'
  · -- The two percentiles lie between the same two samples.
    have floors := floor_mono ranks
    have ceils := ceil_mono ranks
    have next := ceil_le_floor_add_one (percentileRank samples.length p)
    have next' := ceil_le_floor_add_one (percentileRank samples.length q)
    have floor : (percentileRank samples.length q).floor =
        (percentileRank samples.length p).floor := by omega
    have ceil : (percentileRank samples.length q).ceil =
        (percentileRank samples.length p).ceil := by omega
    obtain rfl : lower = lower' := by
      apply Option.some.inj
      rw [← around.lower_at, ← around'.lower_at, floor]
    obtain rfl : upper = upper' := by
      apply Option.some.inj
      rw [← around.upper_at, ← around'.upper_at, ceil]
    rw [around.gapFits_eq] at fits
    obtain ⟨rise, apart⟩ := around.exists_apart finite
    exact pointAt_mono (isRank_percentileRank few percentage) few apart
      (isRank_percentileRank few percentage') fits (by omega) floor ceil ranks

end Around

/-! ## The ends -/

section Ends

variable {samples : List Binary64} {p x : Binary64} (few : samples.length ≤ 2 ^ 53)

include few

/-- At a whole rank the percentile is the sample of that rank. -/
theorem percentile?_of_whole {index : Nat} (percentage : isPercentage p = true)
    (whole : (percentileRank samples.length p).units = index * unitsPerOne)
    (x_at : (sorted samples)[index]? = some x) : percentile? samples p = some x := by
  obtain ⟨floor, ceil⟩ := floor_eq_of_whole whole
  have nonempty : samples ≠ [] :=
    List.ne_nil_of_mem ((sorted_perm samples).mem_iff.1 (List.mem_of_getElem? x_at))
  have around : Around samples p x x := ⟨by rwa [floor], by rwa [ceil]⟩
  rw [percentile?_eq nonempty few percentage around, pointAt, floor, ceil, if_pos rfl]

theorem percentile?_zero (head : (sorted samples).head? = some x) :
    percentile? samples zero = some x := by
  rw [List.head?_eq_getElem?] at head
  apply percentile?_of_whole few (by decide +kernel) _ head
  rw [units_percentileRank_zero few, Nat.zero_mul]

theorem percentile?_hundred (tail : (sorted samples).getLast? = some x) :
    percentile? samples hundred = some x := by
  rw [List.getLast?_eq_getElem?, length_sorted] at tail
  exact percentile?_of_whole few (by decide +kernel) (units_percentileRank_hundred few) tail

end Ends

/-- The percentile of samples in order is that of the samples. -/
theorem percentile?_sorted (samples : List Binary64) (p : Binary64) :
    percentile? (sorted samples) p = percentile? samples p := by
  rw [percentile?, percentile?, (sorted_perm samples).isEmpty_eq,
    sorted_eq_self (pairwise_sorted samples)]

section Finite

variable {samples : List Binary64} {p least last : Binary64}
  (head : (sorted samples).head? = some least) (tail : (sorted samples).getLast? = some last)

include head in
theorem least_mem : least ∈ samples :=
  (sorted_perm samples).mem_iff.1 (List.mem_of_mem_head? head)

include tail in
theorem last_mem : last ∈ samples :=
  (sorted_perm samples).mem_iff.1 (List.mem_of_mem_getLast? tail)

variable (finite : ∀ x ∈ samples, x.isFinite = true)

include head tail finite in
theorem le_ends {x : Binary64} (mem : x ∈ samples) : le least x = true ∧ le x last = true := by
  have number := isNaN_of_isFinite (finite x mem)
  have least_number := isNaN_of_isFinite (finite least (least_mem head))
  have last_number := isNaN_of_isFinite (finite last (last_mem tail))
  have mem' := (sorted_perm samples).mem_iff.2 mem
  rw [le_iff least_number number, le_iff number last_number]
  exact ⟨first_le (pairwise_sorted samples) head mem', le_last (pairwise_sorted samples) tail mem'⟩

variable (few : samples.length ≤ 2 ^ 53) (percentage : isPercentage p = true)

include finite few percentage

include head tail in
/-- If the whole range is a double, then so is every distance in it. -/
theorem gapFits_of_range (range : (sub last least).isFinite = true) : gapFits samples p = true := by
  have nonempty := List.ne_nil_of_mem (least_mem head)
  obtain ⟨lower, upper, around⟩ := exists_around nonempty few percentage
  have low := first_le (pairwise_sorted samples) head (List.mem_of_getElem? around.lower_at)
  have high := le_last (pairwise_sorted samples) tail (List.mem_of_getElem? around.upper_at)
  obtain ⟨rise, apart⟩ := around.exists_apart finite
  obtain ⟨whole, ends_apart⟩ := exists_apart (finite _ (least_mem head)) (finite _ (last_mem tail))
    (low.trans (around.lower_le_upper.trans high))
  have less : rise ≤ whole := by
    have value := apart.value
    have ends_value := ends_apart.value
    omega
  rw [ends_apart.isFinite_sub_iff] at range
  rw [around.gapFits_eq, apart.isFinite_sub_iff]
  exact Nat.lt_of_le_of_lt (nearestMagnitude_mono Nat.one_pos less) range

include head tail in
/-- A percentile is an infinity if the distance between its samples overflows; else it is inside. -/
theorem exists_percentile : ∃ value, percentile? samples p = some value ∧ le least value = true ∧
    (gapFits samples p = true → le value last = true) ∧
    (gapFits samples p = false → value = infinity) := by
  have nonempty := List.ne_nil_of_mem (least_mem head)
  obtain ⟨lower, upper, around⟩ := exists_around nonempty few percentage
  have number := around.isNaN_point finite few percentage
  have lower_number := isNaN_of_isFinite (finite lower around.lower_mem)
  have upper_number := isNaN_of_isFinite (finite upper around.upper_mem)
  refine ⟨_, percentile?_eq nonempty few percentage around, ?_, fun fits => ?_, fun overflow => ?_⟩
  · apply le_of_le_of_le (le_ends head tail finite around.lower_mem).1
    rw [le_iff lower_number number]
    exact around.lower_le_point finite few percentage
  · apply le_of_le_of_le _ (le_ends head tail finite around.upper_mem).2
    rw [le_iff number upper_number]
    exact (around.point_between finite few percentage fits).2.2
  · exact around.point_of_overflow finite few percentage overflow

/-- A greater percentage has no lesser percentile, if the distance between the samples around the
percentile of the lesser one does not overflow. -/
theorem percentile?_mono {q value value' : Binary64} (percentage' : isPercentage q = true)
    (order : le p q = true) (fits : gapFits samples p = true) (run : percentile? samples p = some value)
    (run' : percentile? samples q = some value') : le value value' = true := by
  have nonempty : samples ≠ [] := by
    rintro rfl
    cases run
  obtain ⟨lower, upper, around⟩ := exists_around nonempty few percentage
  obtain ⟨lower', upper', around'⟩ := exists_around nonempty few percentage'
  obtain rfl := Option.some.inj ((percentile?_eq nonempty few percentage around).symm.trans run)
  obtain rfl := Option.some.inj ((percentile?_eq nonempty few percentage' around').symm.trans run')
  obtain ⟨p_finite, p_nonneg, -⟩ := percentage_spec percentage
  obtain ⟨q_finite, -, -⟩ := percentage_spec percentage'
  rw [le_iff (isNaN_of_isFinite p_finite) (isNaN_of_isFinite q_finite)] at order
  rw [le_iff (around.isNaN_point finite few percentage) (around'.isNaN_point finite few percentage')]
  apply around.point_mono finite few percentage around' percentage' _ fits
  have size := natAbs_signedUnits p
  have size' := natAbs_signedUnits q
  omega

end Finite

/-- The percentiles of finite samples: the least sample for 0, the greatest for 100, and in between
numbers that are in order and inside the samples, as long as the distance between the samples around
them is a double; that of the least and the greatest sample is enough. If it is not, the percentile is
an infinity. -/
theorem percentile_ordered {samples : List Binary64} (nonempty : samples ≠ [])
    (few : samples.length ≤ 2 ^ 53) (finite : ∀ x ∈ samples, x.isFinite = true) :
    ∃ least last, least ∈ samples ∧ last ∈ samples ∧
      (∀ x ∈ samples, le least x = true ∧ le x last = true) ∧
      percentile? samples zero = some least ∧ percentile? samples hundred = some last ∧
      (∀ p q, le zero p = true → le p q = true → le q hundred = true →
        ((sub last least).isFinite = true → gapFits samples p = true ∧ gapFits samples q = true) ∧
        ∃ value value', percentile? samples p = some value ∧ percentile? samples q = some value' ∧
          le least value = true ∧ le least value' = true ∧
          (gapFits samples p = true → le value value' = true) ∧
          (gapFits samples q = true → le value' last = true) ∧
          (gapFits samples p = false → value = infinity) ∧
          (gapFits samples q = false → value' = infinity)) ∧
      ∃ spread, Spread.ofSamples? samples = some spread ∧ spread.min = least ∧ spread.max = last ∧
        le spread.min spread.p50 = true ∧
        (gapFits samples (ofNat 50) = true → le spread.p50 spread.max = true) ∧
        (gapFits samples (ofNat 50) = false → spread.p50 = infinity) := by
  obtain ⟨spread, run⟩ := Spread.exists_ofSamples? nonempty (Nat.lt_of_le_of_lt few (by decide))
  obtain ⟨head, tail, median, -⟩ := Spread.of_ofSamples? run
  rw [percentile?_sorted] at median
  refine ⟨spread.min, spread.max, least_mem head, last_mem tail, fun x => le_ends head tail finite,
    percentile?_zero few head, percentile?_hundred few tail, fun p q low order high => ?_,
    spread, run, rfl, rfl, ?_⟩
  · have percentage : isPercentage p = true := Bool.and_eq_true_iff.2 ⟨low, le_of_le_of_le order high⟩
    have percentage' : isPercentage q = true :=
      Bool.and_eq_true_iff.2 ⟨le_of_le_of_le low order, high⟩
    refine ⟨fun range => ⟨gapFits_of_range head tail finite few percentage range,
      gapFits_of_range head tail finite few percentage' range⟩, ?_⟩
    obtain ⟨value, found, low, -, far⟩ := exists_percentile head tail finite few percentage
    obtain ⟨value', found', low', high', far'⟩ := exists_percentile head tail finite few percentage'
    exact ⟨value, value', found, found', low, low',
      fun fits => percentile?_mono finite few percentage percentage' order fits found found',
      high', far, far'⟩
  · obtain ⟨value, found, inside⟩ := exists_percentile head tail finite few isPercentage_fifty
    obtain rfl : spread.p50 = value := Option.some.inj (median.symm.trans found)
    exact inside

/-- The quartiles of three samples. -/
theorem percentile_ordered_laps :
    [ofNat 9, ofNat 2, ofNat 4] ≠ [] ∧ (∀ x ∈ [ofNat 9, ofNat 2, ofNat 4], x.isFinite = true) ∧
    percentile? [ofNat 9, ofNat 2, ofNat 4] zero = some (ofNat 2) ∧
    percentile? [ofNat 9, ofNat 2, ofNat 4] hundred = some (ofNat 9) ∧
    ∃ value value', percentile? [ofNat 9, ofNat 2, ofNat 4] (ofNat 25) = some value ∧
      percentile? [ofNat 9, ofNat 2, ofNat 4] (ofNat 75) = some value' ∧
      le (ofNat 2) value = true ∧ le value value' = true ∧ le value' (ofNat 9) = true := by
  have nonempty : [ofNat 9, ofNat 2, ofNat 4] ≠ [] := List.cons_ne_nil _ _
  have finite : ∀ x ∈ [ofNat 9, ofNat 2, ofNat 4], x.isFinite = true := by decide +kernel
  have order : sorted [ofNat 9, ofNat 2, ofNat 4] = [ofNat 2, ofNat 4, ofNat 9] :=
    (sorted_eq_of_perm (by decide +kernel)).trans (sorted_eq_self (by decide +kernel))
  obtain ⟨least, last, -, -, -, at_zero, at_hundred, between, -⟩ :=
    percentile_ordered nonempty (by decide) finite
  obtain rfl : ofNat 2 = least := by
    rw [percentile?_zero (by decide) (by rw [order]; rfl)] at at_zero
    exact Option.some.inj at_zero
  obtain rfl : ofNat 9 = last := by
    rw [percentile?_hundred (by decide) (by rw [order]; rfl)] at at_hundred
    exact Option.some.inj at_hundred
  obtain ⟨range, value, value', found, found', low, -, rises, high, -⟩ :=
    between (ofNat 25) (ofNat 75) (by decide +kernel) (by decide +kernel) (by decide +kernel)
  obtain ⟨fits, fits'⟩ := range (by decide +kernel)
  exact ⟨nonempty, finite, at_zero, at_hundred, value, value', found, found', low, rises fits,
    high fits'⟩

/-- The median of the two finite numbers that are farthest apart is above both, and above the greatest
percentile. -/
theorem exists_percentile_above_samples :
    ∃ samples, samples ≠ [] ∧ (∀ x ∈ samples, x.isFinite = true) ∧
      percentile? samples (ofNat 50) = some infinity ∧ percentile? samples hundred = some greatest ∧
      le (ofNat 50) hundred = true ∧ le infinity greatest = false ∧
      ∃ spread, Spread.ofSamples? samples = some spread ∧ spread.p50 = infinity ∧
        spread.max = greatest := by
  have order : sorted [greatest.neg, greatest] = [greatest.neg, greatest] := sorted_eq_self (by decide)
  have median : percentile? [greatest.neg, greatest] (ofNat 50) = some infinity := by
    rw [percentile?, order]
    decide +kernel
  obtain ⟨spread, run⟩ := @Spread.exists_ofSamples? [greatest.neg, greatest] (List.cons_ne_nil _ _)
    (by decide)
  obtain ⟨-, tail, p50, -⟩ := Spread.of_ofSamples? run
  rw [percentile?_sorted, median] at p50
  rw [order] at tail
  refine ⟨[greatest.neg, greatest], List.cons_ne_nil _ _, by decide, median,
    percentile?_hundred (by decide) (by rw [order]; rfl), by decide +kernel, by decide, spread, run,
    (Option.some.inj p50).symm, (Option.some.inj tail).symm⟩

end BenchLog
