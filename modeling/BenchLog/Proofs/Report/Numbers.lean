import BenchLog.Summary
import Mathlib.Data.List.Forall2

/-!
# The doubles of a summary

A function on doubles goes over all of a summary, which keeps everything else
(`Summary.mapNumbers?`). It keeps the summary exactly if it keeps each double
(`Summary.mapNumbers?_eq_self_iff`), and gives one exactly if it gives something for each double
(`Summary.isSome_mapNumbers?_iff`).
-/

namespace BenchLog

def Spread.numbers (spread : Spread) : List Binary64 :=
  [spread.min, spread.p50, spread.max, spread.mean, spread.stdDev]

def MetricResult.numbers (result : MetricResult) : List Binary64 :=
  [result.mean, result.droppedMin, result.droppedMax] ++ result.spread.numbers ++ result.samples

/-- All doubles of the summary. -/
def Summary.numbers (summary : Summary) : List Binary64 :=
  summary.metrics.flatMap MetricResult.numbers

/-- All counts of the summary. -/
def Summary.counts (summary : Summary) : List Nat :=
  summary.blocks :: summary.metrics.map (·.spread.count)

section MapNumbers

variable (f : Binary64 → Option Binary64)

def Spread.mapNumbers? (spread : Spread) : Option Spread := do
  return { spread with
    min := ← f spread.min
    p50 := ← f spread.p50
    max := ← f spread.max
    mean := ← f spread.mean
    stdDev := ← f spread.stdDev }

def MetricResult.mapNumbers? (result : MetricResult) : Option MetricResult := do
  return { result with
    mean := ← f result.mean
    droppedMin := ← f result.droppedMin
    droppedMax := ← f result.droppedMax
    spread := ← result.spread.mapNumbers? f
    samples := ← result.samples.mapM f }

/-- The summary with each double replaced by what the function gives for it, if it gives something
for each. -/
def Summary.mapNumbers? (summary : Summary) : Option Summary := do
  return { summary with metrics := ← summary.metrics.mapM (·.mapNumbers? f) }

variable {f}

theorem mapM_eq_self_iff {α : Type} {g : α → Option α} {items : List α} :
    items.mapM g = some items ↔ ∀ item ∈ items, g item = some item := by
  induction items with
  | nil => simp
  | cons item items ih =>
    rw [List.mapM_cons, List.forall_mem_cons, ← ih]
    cases g item with
    | none => simp
    | some item' =>
      cases items.mapM g with
      | none => simp
      | some items' => simp

theorem Spread.mapNumbers?_eq_self_iff {spread : Spread} :
    spread.mapNumbers? f = some spread ↔ ∀ x ∈ spread.numbers, f x = some x := by
  obtain ⟨min, p50, max, mean, stdDev, count⟩ := spread
  simp only [mapNumbers?, numbers, List.forall_mem_cons, Option.bind_eq_bind,
    Option.bind_eq_some_iff, Option.pure_def, Option.some.injEq, Spread.mk.injEq,
    and_true]
  constructor
  · rintro ⟨_, h₁, _, h₂, _, h₃, _, h₄, _, h₅, rfl, rfl, rfl, rfl, rfl⟩
    exact ⟨h₁, h₂, h₃, h₄, h₅, fun x mem => nomatch mem⟩
  · rintro ⟨h₁, h₂, h₃, h₄, h₅, -⟩
    exact ⟨_, h₁, _, h₂, _, h₃, _, h₄, _, h₅, rfl, rfl, rfl, rfl, rfl⟩

theorem MetricResult.mapNumbers?_eq_self_iff {result : MetricResult} :
    result.mapNumbers? f = some result ↔ ∀ x ∈ result.numbers, f x = some x := by
  have spread : result.spread.mapNumbers? f = _ ↔ _ := Spread.mapNumbers?_eq_self_iff
  have samples : result.samples.mapM f = _ ↔ _ := mapM_eq_self_iff
  obtain ⟨name, kind, mean, droppedMin, droppedMax, spread', samples'⟩ := result
  simp only [mapNumbers?, numbers, List.forall_mem_append, List.forall_mem_cons, ← spread,
    ← samples, Option.bind_eq_bind, Option.bind_eq_some_iff, Option.pure_def, Option.some.injEq,
    MetricResult.mk.injEq, true_and]
  constructor
  · rintro ⟨_, h₁, _, h₂, _, h₃, _, h₄, _, h₅, rfl, rfl, rfl, rfl, rfl⟩
    exact ⟨⟨⟨h₁, h₂, h₃, fun x mem => nomatch mem⟩, h₄⟩, h₅⟩
  · rintro ⟨⟨⟨h₁, h₂, h₃, -⟩, h₄⟩, h₅⟩
    exact ⟨_, h₁, _, h₂, _, h₃, _, h₄, _, h₅, rfl, rfl, rfl, rfl, rfl⟩

/-- A summary is kept exactly if each of its doubles is. -/
theorem Summary.mapNumbers?_eq_self_iff {summary : Summary} :
    summary.mapNumbers? f = some summary ↔ ∀ x ∈ summary.numbers, f x = some x := by
  have metrics : summary.metrics.mapM (·.mapNumbers? f) = _ ↔ _ := mapM_eq_self_iff
  simp only [MetricResult.mapNumbers?_eq_self_iff] at metrics
  obtain ⟨recipe, source, blocks, metrics'⟩ := summary
  simp only [mapNumbers?, numbers, List.forall_mem_flatMap, ← metrics, Option.bind_eq_bind,
    Option.bind_eq_some_iff, Option.pure_def, Option.some.injEq, Summary.mk.injEq, true_and,
    exists_eq_right]

theorem isSome_mapM_iff {α β : Type} {g : α → Option β} {items : List α} :
    (items.mapM g).isSome ↔ ∀ item ∈ items, (g item).isSome := by
  induction items with
  | nil => simp
  | cons item items ih =>
    rw [List.mapM_cons, List.forall_mem_cons, ← ih]
    cases g item with
    | none => simp
    | some item' => cases items.mapM g <;> simp

theorem Spread.isSome_mapNumbers?_iff {spread : Spread} :
    (spread.mapNumbers? f).isSome ↔ ∀ x ∈ spread.numbers, (f x).isSome := by
  simp only [mapNumbers?, numbers, List.forall_mem_cons, Option.bind_eq_bind,
    Option.isSome_iff_exists, Option.bind_eq_some_iff, Option.pure_def, Option.some.injEq]
  constructor
  · rintro ⟨_, _, h₁, _, h₂, _, h₃, _, h₄, _, h₅, -⟩
    exact ⟨⟨_, h₁⟩, ⟨_, h₂⟩, ⟨_, h₃⟩, ⟨_, h₄⟩, ⟨_, h₅⟩, fun x mem => nomatch mem⟩
  · rintro ⟨⟨_, h₁⟩, ⟨_, h₂⟩, ⟨_, h₃⟩, ⟨_, h₄⟩, ⟨_, h₅⟩, -⟩
    exact ⟨_, _, h₁, _, h₂, _, h₃, _, h₄, _, h₅, rfl⟩

theorem MetricResult.isSome_mapNumbers?_iff {result : MetricResult} :
    (result.mapNumbers? f).isSome ↔ ∀ x ∈ result.numbers, (f x).isSome := by
  have spread : (result.spread.mapNumbers? f).isSome ↔ _ := Spread.isSome_mapNumbers?_iff
  have samples : (result.samples.mapM f).isSome ↔ _ := isSome_mapM_iff
  rw [numbers, List.forall_mem_append, List.forall_mem_append, ← spread, ← samples]
  simp only [mapNumbers?, List.forall_mem_cons, Option.bind_eq_bind, Option.isSome_iff_exists,
    Option.bind_eq_some_iff, Option.pure_def, Option.some.injEq]
  constructor
  · rintro ⟨_, _, h₁, _, h₂, _, h₃, _, h₄, _, h₅, -⟩
    exact ⟨⟨⟨⟨_, h₁⟩, ⟨_, h₂⟩, ⟨_, h₃⟩, fun x mem => nomatch mem⟩, ⟨_, h₄⟩⟩, ⟨_, h₅⟩⟩
  · rintro ⟨⟨⟨⟨_, h₁⟩, ⟨_, h₂⟩, ⟨_, h₃⟩, -⟩, ⟨_, h₄⟩⟩, ⟨_, h₅⟩⟩
    exact ⟨_, _, h₁, _, h₂, _, h₃, _, h₄, _, h₅, rfl⟩

/-- The function gives something for the summary if it does for each of its doubles. -/
theorem Summary.isSome_mapNumbers?_iff {summary : Summary} :
    (summary.mapNumbers? f).isSome ↔ ∀ x ∈ summary.numbers, (f x).isSome := by
  have metrics : Option.isSome (summary.metrics.mapM (·.mapNumbers? f)) ↔ _ := isSome_mapM_iff
  simp only [MetricResult.isSome_mapNumbers?_iff, ← List.forall_mem_flatMap] at metrics
  rw [numbers, ← metrics, mapNumbers?]
  cases summary.metrics.mapM (·.mapNumbers? f) <;> rfl

end MapNumbers

/-! ## All but the doubles -/

/-- The results agree in all but their doubles. -/
structure MetricResult.Alike (result other : MetricResult) : Prop where
  name : other.name = result.name
  kind : other.kind = result.kind
  count : other.spread.count = result.spread.count
  samples : other.samples.length = result.samples.length

/-- The summaries agree in all but their doubles. -/
structure Summary.Alike (summary other : Summary) : Prop where
  recipe : other.recipe = summary.recipe
  source : other.source = summary.source
  blocks : other.blocks = summary.blocks
  metrics : List.Forall₂ MetricResult.Alike summary.metrics other.metrics

theorem forall₂_of_mapM {α β : Type} {g : α → Option β} {items : List α} {items' : List β}
    (mapped : items.mapM g = some items') :
    List.Forall₂ (fun item item' => g item = some item') items items' := by
  induction items generalizing items' with
  | nil =>
    cases mapped
    exact .nil
  | cons item items ih =>
    rw [List.mapM_cons] at mapped
    simp only [Option.bind_eq_bind, Option.bind_eq_some_iff, Option.pure_def,
      Option.some.injEq] at mapped
    obtain ⟨item', first, items', more, rfl⟩ := mapped
    exact .cons first (ih more)

section Alike

variable {f : Binary64 → Option Binary64}

theorem MetricResult.alike_of_mapNumbers? {result other : MetricResult}
    (mapped : result.mapNumbers? f = some other) : result.Alike other := by
  simp only [mapNumbers?, Spread.mapNumbers?, Option.bind_eq_bind, Option.bind_eq_some_iff,
    Option.pure_def, Option.some.injEq] at mapped
  obtain ⟨_, -, _, -, _, -, _, ⟨_, -, _, -, _, -, _, -, _, -, rfl⟩, samples, all, rfl⟩ := mapped
  exact ⟨rfl, rfl, rfl, (forall₂_of_mapM all).length_eq.symm⟩

/-- A function on doubles keeps the rest of a summary. -/
theorem Summary.alike_of_mapNumbers? {summary other : Summary}
    (mapped : summary.mapNumbers? f = some other) : summary.Alike other := by
  simp only [mapNumbers?, Option.bind_eq_bind, Option.bind_eq_some_iff, Option.pure_def,
    Option.some.injEq] at mapped
  obtain ⟨metrics, all, rfl⟩ := mapped
  exact ⟨rfl, rfl, rfl, (forall₂_of_mapM all).imp fun _ _ => MetricResult.alike_of_mapNumbers?⟩

end Alike

end BenchLog
