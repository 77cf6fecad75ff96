import BenchLog.CommandLine.Arguments
import Mathlib.Data.List.Nodup

/-!
# Values of arguments

A value fills a slot of a draft if the slot is empty and the value possible (`Draft.fill_some`). Possible
values for different slots fill these in any order to the same end (`Draft.fillAll_of_perm`), and a slot
that gets two values is a fault, whatever comes between them (`Draft.fillAll_of_repeated`).
-/

namespace BenchLog.Arguments

/-- Can the slot have the value? -/
def isPossible : Slot → String → Bool
  | .recipe, _ => true
  | .input, value | .output, value => value ≠ ""
  | .format, value => (Format.ofWord? value).isSome

namespace Draft

variable {draft : Draft} {slot other : Slot} {value value' : String}

/-- The draft with a possible value in the slot. -/
def put (draft : Draft) (slot : Slot) (value : String) : Draft :=
  match slot with
  | .recipe => { draft with recipe := some value }
  | .input => { draft with input := some value }
  | .format => { draft with format := Format.ofWord? value }
  | .output => { draft with output := some value }

theorem fill_some : draft.fill slot (some value) =
    if draft.isFilled slot then .error .repeatedOption
    else if isPossible slot value then .ok (draft.put slot value) else .error .invalidValue := by
  have nonempty (next : Draft) : (if value = "" then Except.error Halt.invalidValue else .ok next) =
      if decide (value ≠ "") = true then .ok next else .error .invalidValue := by
    by_cases empty : value = "" <;> simp [empty]
  unfold fill
  dsimp only
  congr 1
  cases slot with
  | recipe => rfl
  | input => exact nonempty _
  | output => exact nonempty _
  | format =>
    obtain unknown | ⟨format, known⟩ := (Format.ofWord? value).eq_none_or_eq_some
    · simp [isPossible, unknown]
    · simp [isPossible, put, known]

theorem isFilled_put (possible : isPossible slot value = true) :
    (draft.put slot value).isFilled other = (decide (other = slot) || draft.isFilled other) := by
  cases slot <;> cases other <;> first | rfl | exact possible

theorem put_comm (differ : slot ≠ other) :
    (draft.put slot value).put other value' = (draft.put other value').put slot value := by
  cases slot <;> cases other <;> first | rfl | exact absurd rfl differ

/-! ## Several values -/

/-- Fills slots one after the other. -/
def fillAll (draft : Draft) (values : List (Slot × String)) : Except Halt Draft :=
  values.foldlM (fun draft given => draft.fill given.1 (some given.2)) draft

/-- The draft with all of the values. -/
def putAll (draft : Draft) (values : List (Slot × String)) : Draft :=
  values.foldl (fun draft given => draft.put given.1 given.2) draft

variable {values values' : List (Slot × String)}

/-- Each of the slots gets one possible value. -/
structure Fills (values : List (Slot × String)) : Prop where
  possible : ∀ given ∈ values, isPossible given.1 given.2 = true
  once : (values.map (·.1)).Nodup

theorem fillAll_of_fills (fills : Fills values)
    (empty : ∀ slot ∈ values.map (·.1), draft.isFilled slot = false) :
    draft.fillAll values = .ok (draft.putAll values) := by
  induction values generalizing draft with
  | nil => rfl
  | cons given values ih =>
    obtain ⟨possible, others⟩ := List.forall_mem_cons.1 fills.possible
    obtain ⟨fresh, once⟩ := List.nodup_cons.1 fills.once
    obtain ⟨own, rest⟩ := List.forall_mem_cons.1 empty
    have run : draft.fill given.1 (some given.2) = .ok (draft.put given.1 given.2) := by
      rw [fill_some, own, possible]
      rfl
    rw [fillAll, List.foldlM_cons, run]
    refine ih ⟨others, once⟩ fun slot mem => ?_
    rw [isFilled_put possible, rest slot mem, Bool.or_false, decide_eq_false_iff_not]
    rintro rfl
    exact fresh mem

/-- The order of values for different slots does not matter. -/
theorem putAll_of_perm (same : values.Perm values') (once : (values.map (·.1)).Nodup) :
    draft.putAll values = draft.putAll values' := by
  refine same.foldl_eq' (fun given mem given' mem' _ => ?_) draft
  by_cases differ : given.1 = given'.1
  · rw [List.inj_on_of_nodup_map once mem mem' differ]
  · exact put_comm differ

theorem Fills.perm (fills : Fills values') (same : values.Perm values') : Fills values :=
  ⟨fun given mem => fills.possible given (same.mem_iff.1 mem), (same.map _).nodup_iff.2 fills.once⟩

theorem fillAll_of_perm (same : values.Perm values') (fills : Fills values') :
    fillAll {} values = .ok (putAll {} values') := by
  have fills' : Fills values := fills.perm same
  rw [← putAll_of_perm same fills'.once]
  refine fillAll_of_fills fills' fun slot _ => ?_
  cases slot <;> rfl

/-- A slot cannot get a second value: that is a fault, unless a value that is not possible comes before. -/
theorem fillAll_of_repeated (repeated : ¬(values.map (·.1)).Nodup ∨
      ∃ slot ∈ values.map (·.1), draft.isFilled slot = true) :
    draft.fillAll values = .error .repeatedOption ∨
      (∃ given ∈ values, isPossible given.1 given.2 = false) ∧
        draft.fillAll values = .error .invalidValue := by
  induction values generalizing draft with
  | nil => simp at repeated
  | cons given values ih =>
    rw [fillAll, List.foldlM_cons, fill_some]
    by_cases filled : draft.isFilled given.1 = true
    · rw [if_pos filled]
      exact Or.inl rfl
    rw [if_neg filled]
    by_cases possible : isPossible given.1 given.2 = true
    · rw [if_pos possible]
      have later : ¬(values.map (·.1)).Nodup ∨
          ∃ slot ∈ values.map (·.1), (draft.put given.1 given.2).isFilled slot = true := by
        rw [List.map_cons, List.nodup_cons, not_and_or, not_not] at repeated
        rcases repeated with (again | repeated) | ⟨slot, mem, there⟩
        · exact Or.inr ⟨given.1, again, by simp [isFilled_put possible]⟩
        · exact Or.inl repeated
        · rcases List.mem_cons.1 mem with rfl | mem
          · exact absurd there filled
          · exact Or.inr ⟨slot, mem, by simp [isFilled_put possible, there]⟩
      rcases ih later with run | ⟨⟨bad, mem, impossible⟩, run⟩
      · exact Or.inl run
      · exact Or.inr ⟨⟨bad, List.mem_cons_of_mem _ mem, impossible⟩, run⟩
    · rw [if_neg possible]
      exact Or.inr ⟨⟨given, List.mem_cons_self, Bool.eq_false_iff.2 possible⟩, rfl⟩

end Draft

end BenchLog.Arguments
