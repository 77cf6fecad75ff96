import BenchLog.Recipe.Basic

/-!
# Recipes that can be used

A recipe can be used exactly if it has a metric, enough blocks, and no two metrics of one name
(`Recipe.validate_eq_ok_iff`). So the number of its blocks may be changed (`validate_withBlocks`). Of any
other recipe the first of these conditions that fails is reported, and of several repeated names the one
that is repeated first (`validate_eq_error_iff`).
-/

namespace BenchLog.Recipe

theorem firstRepeated?_eq_none_iff {seen names : List String} :
    firstRepeated? seen names = none ↔ names.Nodup ∧ ∀ name ∈ names, name ∉ seen := by
  induction names generalizing seen with
  | nil => simp [firstRepeated?]
  | cons name names ih =>
    rw [firstRepeated?, List.nodup_cons]
    by_cases repeated : name ∈ seen
    · simp [repeated]
    · rw [if_neg repeated, ih]
      constructor
      · rintro ⟨nodup, fresh⟩
        refine ⟨⟨fun again => fresh name again List.mem_cons_self, nodup⟩, fun other member => ?_⟩
        rcases List.mem_cons.1 member with rfl | member
        · exact repeated
        · exact fun before => fresh other member (List.mem_cons_of_mem name before)
      · rintro ⟨⟨once, nodup⟩, fresh⟩
        refine ⟨nodup, fun other member before => ?_⟩
        rcases List.mem_cons.1 before with rfl | before
        · exact once member
        · exact fresh other (List.mem_cons_of_mem name member) before

variable {recipe : Recipe}

theorem validate_eq_ok_iff : recipe.validate = .ok () ↔
    recipe.metrics ≠ [] ∧ leastBlocks ≤ recipe.blocks ∧ (recipe.metrics.map (·.name)).Nodup := by
  have nodup := @firstRepeated?_eq_none_iff [] (recipe.metrics.map (·.name))
  simp only [List.not_mem_nil, not_false_eq_true, implies_true, and_true] at nodup
  rw [← nodup]
  unfold validate
  by_cases none : recipe.metrics = []
  · simp [none]
  by_cases few : recipe.blocks < leastBlocks
  · simp [none, few, Nat.not_le.2 few]
  cases repeated : firstRepeated? [] (recipe.metrics.map (·.name)) <;>
    simp [none, few, Nat.not_lt.1 few]

/-- A name is found at the first index where a name stands that is in `seen` or further up. -/
theorem firstRepeated?_eq_some_iff {seen names : List String} {name : String} :
    firstRepeated? seen names = some name ↔ ∃ i, names[i]? = some name ∧
      (name ∈ seen ∨ name ∈ names.take i) ∧
      ∀ j < i, ∀ other, names[j]? = some other → other ∉ seen ∧ other ∉ names.take j := by
  induction names generalizing seen with
  | nil => simp [firstRepeated?]
  | cons head names ih =>
    rw [firstRepeated?]
    by_cases repeated : head ∈ seen
    · rw [if_pos repeated, Option.some.injEq]
      constructor
      · rintro rfl
        exact ⟨0, rfl, Or.inl repeated, fun j before => absurd before (Nat.not_lt_zero j)⟩
      · rintro ⟨i, at_, -, first⟩
        cases i with
        | zero => exact Option.some.inj at_
        | succ i => exact absurd repeated (first 0 i.succ_pos head rfl).1
    · rw [if_neg repeated, ih]
      constructor
      · rintro ⟨i, at_, again, first⟩
        refine ⟨i + 1, at_, by grind, fun j before other at_j => ?_⟩
        cases j with
        | zero =>
          obtain rfl : head = other := Option.some.inj at_j
          exact ⟨repeated, List.not_mem_nil⟩
        | succ j => grind [first j (by omega) other at_j]
      · rintro ⟨i, at_, again, first⟩
        cases i with
        | zero =>
          obtain rfl : head = name := Option.some.inj at_
          simp [repeated] at again
        | succ i =>
          refine ⟨i, at_, by grind, fun j before other at_j => ?_⟩
          grind [first (j + 1) (by omega) other at_j]

/-- One of the first `i` metrics has the name of metric number `i`. -/
def RepeatsAt (recipe : Recipe) (i : Nat) : Prop :=
  ∃ spec, recipe.metrics[i]? = some spec ∧ ∃ earlier ∈ recipe.metrics.take i, earlier.name = spec.name

/-- The first condition that a recipe fails. -/
inductive Fault.IsFirstOf (recipe : Recipe) : Fault → Prop
  | noMetrics (none : recipe.metrics = []) : IsFirstOf recipe (.noMetrics recipe.name)
  | tooFewBlocks (nonempty : recipe.metrics ≠ []) (few : recipe.blocks < 3) :
    IsFirstOf recipe (.tooFewBlocks recipe.name recipe.blocks)
  | repeatedMetric {i : Nat} {spec : MetricSpec} (nonempty : recipe.metrics ≠ [])
    (enough : 3 ≤ recipe.blocks) (at_ : recipe.metrics[i]? = some spec) (repeats : recipe.RepeatsAt i)
    (first : ∀ j < i, ¬recipe.RepeatsAt j) : IsFirstOf recipe (.repeatedMetric spec.name)

theorem firstRepeated?_metrics {name : String} :
    firstRepeated? [] (recipe.metrics.map (·.name)) = some name ↔
      ∃ i spec, recipe.metrics[i]? = some spec ∧ spec.name = name ∧ recipe.RepeatsAt i ∧
        ∀ j < i, ¬recipe.RepeatsAt j := by
  rw [firstRepeated?_eq_some_iff]
  simp only [RepeatsAt, ← List.map_take, List.getElem?_map, Option.map_eq_some_iff, List.mem_map,
    List.not_mem_nil, false_or, not_false_eq_true, true_and, not_exists, not_and]
  constructor
  · rintro ⟨i, ⟨spec, at_, rfl⟩, again, first⟩
    exact ⟨i, spec, at_, rfl, ⟨spec, at_, again⟩,
      fun j before other at_j => first j before other.name ⟨other, at_j, rfl⟩⟩
  · rintro ⟨i, spec, at_, rfl, ⟨spec', at', again⟩, first⟩
    obtain rfl := Option.some.inj (at_.symm.trans at')
    refine ⟨i, ⟨spec, at_, rfl⟩, again, ?_⟩
    rintro j before _ ⟨other, at_j, rfl⟩
    exact first j before other at_j

theorem validate_eq_error_iff {fault : Fault} :
    recipe.validate = .error fault ↔ fault.IsFirstOf recipe := by
  constructor
  · intro failed
    unfold validate at failed
    split at failed
    · next none =>
      cases failed
      exact .noMetrics (List.isEmpty_iff.1 none)
    · next nonempty =>
      rw [List.isEmpty_iff] at nonempty
      split at failed
      · next few =>
        cases failed
        exact .tooFewBlocks nonempty few
      · next enough =>
        split at failed
        · next metric found =>
          cases failed
          obtain ⟨i, spec, at_, rfl, repeats, first⟩ := firstRepeated?_metrics.1 found
          exact .repeatedMetric nonempty (Nat.not_lt.1 enough) at_ repeats first
        · cases failed
  · intro wrong
    cases wrong with
    | noMetrics none =>
      rw [validate, none]
      rfl
    | tooFewBlocks nonempty few =>
      have few : recipe.blocks < leastBlocks := few
      rw [validate, if_neg (mt List.isEmpty_iff.1 nonempty), if_pos few]
    | repeatedMetric nonempty enough at_ repeats first =>
      have enough : ¬recipe.blocks < leastBlocks := Nat.not_lt.2 enough
      have found := firstRepeated?_metrics.2 ⟨_, _, at_, rfl, repeats, first⟩
      rw [validate, if_neg (mt List.isEmpty_iff.1 nonempty), if_neg enough, found]

/-- The recipe with another number of blocks. -/
def withBlocks (recipe : Recipe) (blocks : Nat) : Recipe := { recipe with blocks }

theorem validate_withBlocks (valid : recipe.validate = .ok ()) {blocks : Nat}
    (enough : leastBlocks ≤ blocks) : (recipe.withBlocks blocks).validate = .ok () := by
  obtain ⟨some, -, nodup⟩ := validate_eq_ok_iff.1 valid
  exact validate_eq_ok_iff.2 ⟨some, enough, nodup⟩

end BenchLog.Recipe
