import BenchLog.Proofs.Log.Layout
import BenchLog.Proofs.Recipe.Validity

/-!
# The first fault of a log

A log can be wrong in several places and ways; `Recipe.FaultAt` says what is wrong at a line
number. Parsing ends at the first such line, fails with what is wrong there and has taken the lines
up to it; without a fault it takes a line for each slot, as long as there are lines
(`parse_firstFault`). A recipe that cannot be used takes nothing.

Neither does a recipe without room for its samples, and it looks at no line: what is wrong with the
log is not told then (`exists_untold_fault`).
-/

namespace BenchLog

/-- What is wrong at line number `k` of a log. -/
inductive Recipe.FaultAt (recipe : Recipe) (log : Log) (k : Nat) : LogError → Prop
  /-- The line is there, but is not text. -/
  | unreadable {line : List UInt8} (there : log.lines[k]? = some line)
    (undecodable : Log.decode? line = none) : FaultAt recipe log k (.unreadable .notUtf8)
  /-- A metric line is not there. -/
  | ended {spec : MetricSpec}
    (metric : recipe.metrics[k % (recipe.metrics.length + 1)]? = some spec)
    (missing : log.lines[k]? = none) :
    FaultAt recipe log k (.ended (k / (recipe.metrics.length + 1)) spec.name)
  /-- The text of a metric line is not accepted. -/
  | notNumber {spec : MetricSpec} {line : List UInt8} {text : List Char}
    (metric : recipe.metrics[k % (recipe.metrics.length + 1)]? = some spec)
    (there : log.lines[k]? = some line) (decoded : Log.decode? line = some text)
    (rejected : spec.extract? text = none) :
    FaultAt recipe log k
      (.notNumber (k / (recipe.metrics.length + 1)) spec.name spec.kind (spec.clean text))

namespace Recipe

variable {recipe : Recipe} {log : Log} {k : Nat} {error : LogError}

/-- The slots know the same faults. -/
theorem faultAt_iff (inside : k < recipe.lineCount) :
    recipe.FaultAt log k error ↔
      ∃ slot, recipe.slots[k]? = some slot ∧ slot.fault? log.lines[k]? = some error := by
  obtain ⟨block, column, inBlocks, inBlock, rfl, div, mod⟩ := exists_lineNumber inside
  rw [getElem?_slots inBlocks inBlock]
  simp only [Option.some.injEq, exists_eq_left']
  constructor
  · intro fault
    cases fault with
    | unreadable there undecodable =>
      rw [there]
      unfold Slot.ofColumn
      cases recipe.metrics[column]? <;> simp only [Slot.fault?, undecodable]
    | ended metric missing =>
      rw [mod] at metric
      rw [div, missing, Slot.ofColumn, metric]
      rfl
    | notNumber metric there decoded rejected =>
      rw [mod] at metric
      rw [div, there, Slot.ofColumn, metric]
      simp only [Slot.fault?, decoded, MetricSpec.sample, rejected]
  · intro fault
    unfold Slot.ofColumn at fault
    cases there : log.lines[recipe.lineNumber block column]? with
    | none =>
      cases metric : recipe.metrics[column]? with
      | none => simp only [metric, there, Slot.fault?, reduceCtorEq] at fault
      | some spec =>
        simp only [metric, there, Slot.fault?, Option.some.injEq] at fault
        subst fault
        have missing : recipe.FaultAt log _ _ := .ended (mod.symm ▸ metric) there
        rwa [div] at missing
    | some line =>
      cases decoded : Log.decode? line with
      | none =>
        obtain rfl : LogError.unreadable .notUtf8 = error := by
          cases metric : recipe.metrics[column]? <;>
            simpa only [metric, there, Slot.fault?, decoded, Option.some.injEq] using fault
        exact .unreadable there decoded
      | some text =>
        cases metric : recipe.metrics[column]? with
        | none => simp only [metric, there, Slot.fault?, decoded, reduceCtorEq] at fault
        | some spec =>
          cases rejected : spec.extract? text with
          | some value =>
            simp only [metric, there, Slot.fault?, decoded, MetricSpec.sample, rejected,
              reduceCtorEq] at fault
          | none =>
            simp only [metric, there, Slot.fault?, decoded, MetricSpec.sample, rejected,
              Option.some.injEq] at fault
            subst fault
            have bad : recipe.FaultAt log _ _ :=
              .notNumber (mod.symm ▸ metric) there decoded rejected
            rwa [div] at bad

theorem not_faultAt_of_slot {slot : Slot} (at_ : recipe.slots[k]? = some slot)
    (fine : slot.fault? log.lines[k]? = none) (error : LogError) :
    ¬ recipe.FaultAt log k error := by
  intro fault
  obtain ⟨slot', at', wrong⟩ := (faultAt_iff (lt_lineCount_of_slot at_)).1 fault
  obtain rfl := Option.some.inj (at_.symm.trans at')
  rw [fine] at wrong
  cases wrong

/-- Nothing is wrong with the lines before `k`. -/
theorem sound_take_iff (inside : k ≤ recipe.lineCount) :
    Sound (recipe.slots.take k) log.lines ↔ ∀ i < k, ∀ error, ¬ recipe.FaultAt log i error := by
  constructor
  · intro sound i before error fault
    obtain ⟨slot, at_, wrong⟩ := (faultAt_iff (by omega)).1 fault
    have fine := sound i slot (by rw [List.getElem?_take_of_lt before, at_])
    rw [fine] at wrong
    cases wrong
  · intro fine i slot at_
    rw [List.getElem?_take] at at_
    split at at_
    · next before =>
      rw [Option.eq_none_iff_forall_ne_some]
      intro error wrong
      exact fine i before error ((faultAt_iff (by omega)).2 ⟨slot, at_, wrong⟩)
    · cases at_

end Recipe

/-- Parsing fails with what is wrong at the first line where something is, and has taken the lines
up to and with this one; if nothing is wrong it succeeds, and has taken as many lines as the blocks
have, or all. A recipe that cannot be used takes nothing off the log, and neither does one that has
more blocks than there is room for samples. -/
theorem parse_firstFault (recipe : Recipe) (log : Log) :
    (∀ fault, recipe.validate = .error fault →
      (recipe.parse log).outcome = .error (.unusableRecipe fault) ∧
        (recipe.parse log).rest = log) ∧
    (recipe.validate = .ok () → ¬ HasRoom recipe.blocks →
      (recipe.parse log).outcome = .error .capacityOverflow ∧ (recipe.parse log).rest = log) ∧
    (recipe.validate = .ok () → HasRoom recipe.blocks →
      (∀ k < recipe.lineCount, ∀ error, recipe.FaultAt log k error →
        (∀ i < k, ∀ error, ¬ recipe.FaultAt log i error) →
        (recipe.parse log).outcome = .error error ∧
          (log.lines.take (k + 1)).flatten ++ (recipe.parse log).rest = log) ∧
      ((∀ k < recipe.lineCount, ∀ error, ¬ recipe.FaultAt log k error) →
        (∃ series, (recipe.parse log).outcome = .ok series) ∧
          (log.lines.take (min recipe.lineCount log.lines.length)).flatten
            ++ (recipe.parse log).rest = log)) := by
  refine ⟨fun fault invalid => ?_, fun valid full => ?_, fun valid room => ?_⟩
  · rw [Recipe.parse_of_unusable invalid]
    exact ⟨rfl, rfl⟩
  · rw [Recipe.parse_of_full valid full]
    exact ⟨rfl, rfl⟩
  · rw [Recipe.parse_eq_read room]
    refine ⟨fun k inside error fault first => ?_, fun none => ?_⟩
    · have firstFault : FirstFault recipe.slots log.lines k error :=
        ⟨(Recipe.faultAt_iff inside).1 fault,
          (Recipe.sound_take_iff (Nat.le_of_lt inside)).2 first⟩
      rw [(Recipe.reads valid).fails firstFault]
      exact ⟨rfl, Log.take_append_afterLines (k + 1) log⟩
    · have sound := (Recipe.sound_take_iff (Nat.le_refl _)).2 none
      rw [← Recipe.length_slots, List.take_length] at sound
      obtain ⟨series, -, run⟩ := (Recipe.reads valid).succeeds sound
      rw [run]
      refine ⟨⟨series, rfl⟩, ?_⟩
      dsimp only
      rw [Recipe.length_slots, ← Log.afterLines_min, Log.take_append_afterLines]

/-- A line that is not text comes before a line that is no number. -/
theorem parse_firstFault_laps :
    let log := Log.encode "12 \n--\n".toList ++ [0xff, 10] ++ Log.encode "--\nfast \n".toList
    (Recipe.laps.parse log).outcome = .error (.unreadable .notUtf8) ∧
      (log.lines.take 3).flatten ++ (Recipe.laps.parse log).rest = log := by
  intro log
  obtain ⟨-, -, faults⟩ := parse_firstFault Recipe.laps log
  refine (faults rfl (by decide)).1 2 (by decide) _ (.unreadable rfl rfl) ?_
  intro i before error fault
  match i, before with
  | 0, _ =>
    cases fault with
    | unreadable there undecodable => cases there; cases undecodable
    | ended metric missing => cases missing
    | notNumber metric there decoded rejected =>
      cases metric; cases there; cases decoded; cases rejected
  | 1, _ =>
    cases fault with
    | unreadable there undecodable => cases there; cases undecodable
    | ended metric missing => cases missing
    | notNumber metric there decoded rejected => cases metric

/-- Laps of which there are more than a vector can hold, by one. -/
def Recipe.endlessLaps : Recipe := Recipe.laps.withBlocks 1152921504606846976

theorem Recipe.parse_endlessLaps (log : Log) :
    Recipe.endlessLaps.parse log = ⟨[], .error .capacityOverflow, log⟩ := by
  rw [parse_of_full rfl (by decide)]
  rfl

/-- The fault of a log is not always told: an empty log has no line for the first metric, but that is
not why it cannot be read if there is no room for the samples. -/
theorem exists_untold_fault :
    ¬ ∀ (recipe : Recipe) (log : Log), recipe.validate = .ok () →
      ∀ k < recipe.lineCount, ∀ error, recipe.FaultAt log k error →
        (∀ i < k, ∀ error, ¬ recipe.FaultAt log i error) →
        (recipe.parse log).outcome = .error error ∧
          (log.lines.take (k + 1)).flatten ++ (recipe.parse log).rest = log := by
  intro told
  have ended : Recipe.endlessLaps.FaultAt [] 0 (.ended 0 "ticks") :=
    @Recipe.FaultAt.ended _ [] 0 ⟨"ticks", .integer, 2, .keep⟩ rfl rfl
  obtain ⟨outcome, -⟩ := told Recipe.endlessLaps [] rfl 0 (by decide) _ ended
    fun i before => absurd before (Nat.not_lt_zero i)
  rw [Recipe.parse_endlessLaps] at outcome
  cases outcome

end BenchLog
