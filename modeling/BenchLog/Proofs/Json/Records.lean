import BenchLog.Proofs.Json.Documents

/-!
# JSON records

A record, an array of items and a count are written in a way that reads back. A record in which no
name stands twice gives the values of the names that are asked for (`fields?_record`), and an array
reads back item by item (`mapM_document`).
-/

namespace BenchLog.Json

/-! ## Writing -/

theorem Written.record {members : List (String × Json)}
    (written : ∀ member ∈ members, Written member.2) : Written (.record members) := by
  apply Written.object
  · intro member mem
    obtain ⟨_, -, rfl⟩ := List.mem_map.1 mem
    rfl
  · intro member mem
    obtain ⟨member, inside, rfl⟩ := List.mem_map.1 mem
    exact written member inside

theorem written_natural (n : Nat) : Written (.natural n) := .number (wellFormed_natural n)

theorem Written.map {α : Type} {document : α → Json} (written : ∀ x, Written (document x))
    (items : List α) : Written (.array (items.map document)) := by
  apply Written.array
  intro item mem
  obtain ⟨x, -, rfl⟩ := List.mem_map.1 mem
  exact written x

/-! ## Taking apart -/

/-- Where no name stands twice, the member of a name is the first of that name. -/
theorem filter_record {members : List (String × Json)}
    (names : (members.map Prod.fst).Nodup) (name : String) :
    ((members.map fun (name, value) => (some name, value)).filter (·.1 = some name)).map Prod.snd =
      (members.lookup name).toList := by
  induction members with
  | nil => rfl
  | cons member members ih =>
    obtain ⟨first, value⟩ := member
    obtain ⟨absent, others⟩ := List.nodup_cons.1 names
    by_cases same : name = first
    · subst same
      have none_left : (members.map fun (name, value) => (some name, value)).filter
          (·.1 = some name) = [] := by
        apply List.filter_eq_nil_iff.2
        intro other mem
        obtain ⟨⟨name', value'⟩, inside, rfl⟩ := List.mem_map.1 mem
        simp only [Option.some.injEq, decide_eq_true_eq]
        rintro rfl
        exact absent (List.mem_map.2 ⟨_, inside, rfl⟩)
      simp [none_left]
    · rw [List.lookup_cons, beq_false_of_ne same, ← ih others]
      simp [Ne.symm same]

theorem fields?_record {members : List (String × Json)}
    (names : (members.map Prod.fst).Nodup) (wanted : List String) :
    (record members).fields? wanted = some (wanted.map fun name => members.lookup name) := by
  have named :
      ((members.map fun (name, value) => (some name, value)).any (·.1.isNone)) = false := by
    simp
  rw [record, fields?, named]
  simp only [Bool.false_eq_true, if_false]
  induction wanted with
  | nil => rfl
  | cons name wanted ih =>
    have member := filter_record names name
    rw [List.mapM_cons, ih]
    cases found : members.lookup name with
    | none =>
      rw [found, Option.toList_none, List.map_eq_nil_iff] at member
      simp [member, found]
    | some value =>
      rw [found, Option.toList_some, List.map_eq_singleton_iff] at member
      obtain ⟨⟨name', value'⟩, only, rfl⟩ := member
      simp [only, found]

@[simp] theorem text?_text (s : String) : (text s).text? = some s := rfl

@[simp] theorem items?_array (items : List Json) : (array items).items? = some items := rfl

/-- Items read back one by one. -/
theorem mapM_document {α : Type} {document : α → Json} {read : Json → Option α}
    {f : α → Option α} {items : List α} (each : ∀ item ∈ items, read (document item) = f item) :
    (items.map document).mapM read = items.mapM f := by
  induction items with
  | nil => rfl
  | cons item items ih =>
    rw [List.forall_mem_cons] at each
    rw [List.map_cons, List.mapM_cons, List.mapM_cons, each.1, ih each.2]

end BenchLog.Json
