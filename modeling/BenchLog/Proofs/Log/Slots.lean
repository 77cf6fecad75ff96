import BenchLog.Log.Blocks
import BenchLog.Proofs.Log.Lines

/-!
# Places of a log

A `Slot` is one place of a log where a line is expected, that of a metric or that of a separator.
It says what is wrong with a line, or with its absence (`Slot.fault?`), and what is told when
nothing is (`Slot.events`). Of slots in turn, either nothing is wrong at any or there is a first
fault (`sound_or_exists_firstFault`). Two logs can be the same at all slots (`SameAt`).
-/

namespace BenchLog

/-- Is it a failure that a line can cause, or the lack of a line? -/
def LogError.isOfLine : LogError → Bool
  | unreadable _ | ended .. | notNumber .. => true
  | _ => false

/-- The sample that a line holds, if it is text and the text is accepted. -/
def MetricSpec.ofLine? (spec : MetricSpec) (line : List UInt8) : Option Binary64 :=
  (Log.decode? line).bind spec.extract?

/-- A place of a log where a line is expected. -/
inductive Slot where
  /-- The line of a metric. -/
  | sample (block : Nat) (spec : MetricSpec)
  /-- The line after a block, of so many blocks. -/
  | separator (block total : Nat)

namespace Slot

/-- What is wrong with the line at a slot, or with its absence. -/
def fault? : Slot → Option (List UInt8) → Option LogError
  | sample block spec, none => some (.ended block spec.name)
  | sample block spec, some line =>
    match Log.decode? line with
    | none => some (.unreadable .notUtf8)
    | some text =>
      match spec.sample block text with
      | .error error => some error
      | .ok _ => none
  | separator .., none => none
  | separator .., some line =>
    match Log.decode? line with
    | none => some (.unreadable .notUtf8)
    | some _ => none

/-- What is told at a slot where nothing is wrong. -/
def events (line? : Option (List UInt8)) : Slot → List Event
  | sample block spec =>
    ((line?.bind spec.ofLine?).map (Event.sampleRead block spec.name)).toList
  | separator block total =>
    (if line? = none ∧ block + 1 < total then [.separatorMissing block] else [])
      ++ [.blockRead (block + 1) total]

/-- A line of a metric is at fault exactly if it holds no sample. -/
theorem fault?_sample_eq_none_iff {block : Nat} {spec : MetricSpec}
    {line? : Option (List UInt8)} :
    (sample block spec).fault? line? = none ↔ (line?.bind spec.ofLine?).isSome := by
  cases line? with
  | none => simp [fault?]
  | some line =>
    cases text : Log.decode? line with
    | none => simp [fault?, MetricSpec.ofLine?, text]
    | some text' =>
      cases value : spec.extract? text' <;>
        simp [fault?, MetricSpec.ofLine?, MetricSpec.sample, text, value]

/-- The line of a separator is at fault exactly if it is there and is not text. -/
theorem fault?_separator_eq_none_iff {block total : Nat} {line? : Option (List UInt8)} :
    (separator block total).fault? line? = none ↔
      ∀ line, line? = some line → (Log.decode? line).isSome := by
  cases line? with
  | none => simp [fault?]
  | some line => cases text : Log.decode? line <;> simp [fault?, text]

theorem isOfLine_of_fault? {slot : Slot} {line? : Option (List UInt8)} {error : LogError}
    (fault : slot.fault? line? = some error) : error.isOfLine = true := by
  cases slot with
  | sample block spec =>
    cases line? with
    | none =>
      cases fault
      rfl
    | some line =>
      cases text : Log.decode? line with
      | none =>
        simp only [fault?, text, Option.some.injEq] at fault
        rw [← fault]
        rfl
      | some text' =>
        cases value : spec.extract? text' with
        | none =>
          simp only [fault?, text, MetricSpec.sample, value, Option.some.injEq] at fault
          rw [← fault]
          rfl
        | some value => simp [fault?, text, MetricSpec.sample, value] at fault
  | separator block total =>
    cases line? with
    | none => cases fault
    | some line =>
      cases text : Log.decode? line with
      | none =>
        simp only [fault?, text, Option.some.injEq] at fault
        rw [← fault]
        rfl
      | some text' => simp [fault?, text] at fault

end Slot

/-! ## Slots in turn -/

/-- Nothing is wrong at any of the slots. -/
def Sound (slots : List Slot) (lines : List (List UInt8)) : Prop :=
  ∀ (k : Nat) (slot : Slot), slots[k]? = some slot → slot.fault? lines[k]? = none

/-- Slot number `k` is the first where something is wrong. -/
def FirstFault (slots : List Slot) (lines : List (List UInt8)) (k : Nat) (error : LogError) :
    Prop :=
  (∃ slot, slots[k]? = some slot ∧ slot.fault? lines[k]? = some error) ∧ Sound (slots.take k) lines

/-- What is told at slots where nothing is wrong. -/
def trace : List Slot → List (List UInt8) → List Event
  | [], _ => []
  | slot :: slots, lines => slot.events lines.head? ++ trace slots lines.tail

theorem sound_nil (lines : List (List UInt8)) : Sound [] lines := by
  intro k slot at_
  simp at at_

theorem sound_cons {slot : Slot} {slots : List Slot} {lines : List (List UInt8)} :
    Sound (slot :: slots) lines ↔ slot.fault? lines.head? = none ∧ Sound slots lines.tail := by
  constructor
  · intro sound
    refine ⟨by rw [List.head?_eq_getElem?]; exact sound 0 slot rfl, fun k slot at_ => ?_⟩
    have := sound (k + 1) slot (by simpa using at_)
    rwa [List.getElem?_tail]
  · rintro ⟨first, sound⟩ k slot' at_
    cases k with
    | zero =>
      obtain rfl : slot = slot' := by simpa using at_
      rwa [List.head?_eq_getElem?] at first
    | succ k =>
      have := sound k slot' (by simpa using at_)
      rwa [List.getElem?_tail] at this

theorem sound_append {first second : List Slot} {lines : List (List UInt8)} :
    Sound (first ++ second) lines ↔
      Sound first lines ∧ Sound second (lines.drop first.length) := by
  induction first generalizing lines with
  | nil => simp [sound_nil]
  | cons slot slots ih =>
    rw [List.cons_append, sound_cons, sound_cons, ih, and_assoc, List.length_cons, List.drop_tail]

theorem trace_append (first second : List Slot) (lines : List (List UInt8)) :
    trace (first ++ second) lines =
      trace first lines ++ trace second (lines.drop first.length) := by
  induction first generalizing lines with
  | nil => rfl
  | cons slot slots ih =>
    rw [List.cons_append, trace, trace, ih, List.append_assoc, List.length_cons, List.drop_tail]

/-- What is told at slots is told at one after the other. -/
theorem trace_eq_flatten (slots : List Slot) (lines : List (List UInt8)) :
    trace slots lines = (slots.mapIdx fun k slot => slot.events lines[k]?).flatten := by
  induction slots generalizing lines with
  | nil => rfl
  | cons slot slots ih =>
    rw [trace, ih, List.mapIdx_cons, List.flatten_cons, List.head?_eq_getElem?]
    simp only [List.getElem?_tail]

theorem FirstFault.not_sound {slots : List Slot} {lines : List (List UInt8)} {k : Nat}
    {error : LogError} (h : FirstFault slots lines k error) : ¬ Sound slots lines := by
  obtain ⟨⟨slot, at_, fault⟩, -⟩ := h
  intro sound
  rw [sound k slot at_] at fault
  cases fault

/-- The first fault of slots and more slots is the first of either. -/
theorem FirstFault.of_append {first second : List Slot} {lines : List (List UInt8)} {k : Nat}
    {error : LogError} (h : FirstFault (first ++ second) lines k error) :
    FirstFault first lines k error ∨
      ∃ i, k = first.length + i ∧ Sound first lines ∧
        FirstFault second (lines.drop first.length) i error := by
  obtain ⟨⟨slot, at_, fault⟩, before⟩ := h
  by_cases inside : k < first.length
  · rw [List.getElem?_append_left inside] at at_
    rw [List.take_append_of_le_length (by omega)] at before
    exact Or.inl ⟨⟨slot, at_, fault⟩, before⟩
  · obtain ⟨i, rfl⟩ : ∃ i, k = first.length + i := ⟨k - first.length, by omega⟩
    rw [List.getElem?_append_right (by omega), Nat.add_sub_cancel_left] at at_
    rw [List.take_length_add_append, sound_append] at before
    refine Or.inr ⟨i, rfl, before.1, ⟨slot, at_, ?_⟩, before.2⟩
    rwa [List.getElem?_drop]

theorem FirstFault.of_singleton {slot : Slot} {lines : List (List UInt8)} {k : Nat}
    {error : LogError} (h : FirstFault [slot] lines k error) :
    k = 0 ∧ slot.fault? lines.head? = some error := by
  obtain ⟨⟨slot', at_, fault⟩, -⟩ := h
  cases k with
  | zero =>
    obtain rfl : slot = slot' := by simpa using at_
    exact ⟨rfl, by rwa [List.head?_eq_getElem?]⟩
  | succ k => simp at at_

/-- There is a first fault unless nothing is wrong. -/
theorem sound_or_exists_firstFault (slots : List Slot) (lines : List (List UInt8)) :
    Sound slots lines ∨ ∃ k error, FirstFault slots lines k error := by
  induction slots generalizing lines with
  | nil => exact Or.inl (sound_nil lines)
  | cons slot slots ih =>
    cases fault : slot.fault? lines.head? with
    | some error =>
      exact Or.inr ⟨0, error, ⟨slot, rfl, by rwa [List.head?_eq_getElem?] at fault⟩,
        sound_nil lines⟩
    | none =>
      rcases ih lines.tail with sound | ⟨k, error, ⟨slot', at_, wrong⟩, before⟩
      · exact Or.inl (sound_cons.2 ⟨fault, sound⟩)
      · refine Or.inr ⟨k + 1, error, ⟨slot', by simpa using at_, ?_⟩, ?_⟩
        · rwa [List.getElem?_tail] at wrong
        · rw [List.take_succ_cons]
          exact sound_cons.2 ⟨fault, before⟩

/-! ## Slots of two logs -/

theorem getElem?_of_take {α : Type} {items : List α} {count k : Nat} {item : α}
    (at_ : (items.take count)[k]? = some item) : items[k]? = some item := by
  rw [List.getElem?_take] at at_
  split at at_
  · exact at_
  · cases at_

/-- At each of the slots the same is wrong with the lines of two logs, and the same is told. -/
def SameAt (slots : List Slot) (lines lines' : List (List UInt8)) : Prop :=
  ∀ (k : Nat) (slot : Slot), slots[k]? = some slot →
    slot.fault? lines'[k]? = slot.fault? lines[k]? ∧ slot.events lines'[k]? = slot.events lines[k]?

namespace SameAt

variable {slots : List Slot} {lines lines' : List (List UInt8)} (same : SameAt slots lines lines')

include same

theorem take (count : Nat) : SameAt (slots.take count) lines lines' :=
  fun k slot at_ => same k slot (getElem?_of_take at_)

theorem sound (sound : Sound slots lines) : Sound slots lines' :=
  fun k slot at_ => (same k slot at_).1.trans (sound k slot at_)

theorem firstFault {k : Nat} {error : LogError} (fault : FirstFault slots lines k error) :
    FirstFault slots lines' k error := by
  obtain ⟨⟨slot, at_, wrong⟩, before⟩ := fault
  exact ⟨⟨slot, at_, (same k slot at_).1.trans wrong⟩, (same.take k).sound before⟩

theorem trace_eq : trace slots lines' = trace slots lines := by
  rw [trace_eq_flatten, trace_eq_flatten]
  congr 1
  apply List.ext_getElem?
  intro k
  rw [List.getElem?_mapIdx, List.getElem?_mapIdx]
  cases at_ : slots[k]? with
  | none => rfl
  | some slot => exact congrArg some (same k slot at_).2

end SameAt

end BenchLog
