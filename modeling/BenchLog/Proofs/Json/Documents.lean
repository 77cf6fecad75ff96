import BenchLog.Proofs.Json.Numbers
import BenchLog.Proofs.Json.Strings

/-!
# JSON documents read back

A document whose numbers are well-formed and whose strings have a text (`Written`) reads back from
its text in either layout (`read?_render`). The fuel of the reader suffices because each step leaves
less text, or the same text to a reader that takes some (`ReadsBack`).
-/

namespace BenchLog.Json

/-- The document is one that is written. -/
inductive Written : Json → Prop
  | null : Written .null
  | boolean (value : Bool) : Written (.boolean value)
  | number {n : Number} (wellFormed : n.WellFormed) : Written (.number n)
  | string (text : String) : Written (.string (some text))
  | array {items : List Json} (written : ∀ item ∈ items, Written item) : Written (.array items)
  | object {members : List (Option String × Json)} (named : ∀ member ∈ members, member.1.isSome)
    (written : ∀ member ∈ members, Written member.2) : Written (.object members)

/-! ## Blanks -/

theorem skipBlank_newLine (layout : Layout) (depth : Nat) (text : List Char) :
    skipBlank (layout.newLine depth ++ text) = skipBlank text := by
  cases layout with
  | compact => rfl
  | indented =>
    apply List.dropWhile_append_of_pos
    intro c mem
    rcases List.mem_cons.1 mem with rfl | mem
    · rfl
    · rw [List.eq_of_mem_replicate mem]
      rfl

theorem skipBlank_cons {c : Char} (h : isBlank c = false) (text : List Char) :
    skipBlank (c :: text) = c :: text := by
  rw [skipBlank, List.dropWhile_cons_of_neg (by simp [h])]

theorem readValue?_newLine (layout : Layout) (depth fuel : Nat) (text : List Char) :
    readValue? fuel (layout.newLine depth ++ text) = readValue? fuel text := by
  cases fuel with
  | zero => rw [readValue?, readValue?]
  | succ fuel => rw [readValue?, readValue?, skipBlank_newLine]

theorem readItems?_newLine (layout : Layout) (depth fuel : Nat) (text : List Char) :
    readItems? fuel (layout.newLine depth ++ text) = readItems? fuel text := by
  cases fuel with
  | zero => rw [readItems?, readItems?]
  | succ fuel => rw [readItems?, readItems?, readValue?_newLine]

theorem readMembers?_newLine (layout : Layout) (depth fuel : Nat) (text : List Char) :
    readMembers? fuel (layout.newLine depth ++ text) = readMembers? fuel text := by
  cases fuel with
  | zero => rw [readMembers?, readMembers?]
  | succ fuel => rw [readMembers?, readMembers?, skipBlank_newLine]

/-! ## Items -/

/-- The document reads back at any depth, with any text behind it that cannot go on with it. -/
def ReadsBack (layout : Layout) (document : Json) : Prop :=
  ∀ (depth fuel : Nat) (rest : List Char), Stops rest →
    2 * (renderAt layout depth document ++ rest).length < fuel →
    readValue? fuel (renderAt layout depth document ++ rest) = some (document, rest)

theorem stops_newLine (layout : Layout) (depth : Nat) {text : List Char} (stops : Stops text) :
    Stops (layout.newLine depth ++ text) := by
  cases layout with
  | compact => exact stops
  | indented => exact stops_cons _ (by decide)

theorem stops_moreItems (layout : Layout) (depth : Nat) (items : List Json) {text : List Char}
    (stops : Stops text) : Stops (moreItems layout depth items ++ text) := by
  cases items with
  | nil => exact stops
  | cons item items => exact stops_cons _ (by decide)

theorem readItems?_render (layout : Layout) (depth outer : Nat) {items : List Json}
    (readsBack : ∀ item ∈ items, ReadsBack layout item) :
    ∀ {item : Json}, ReadsBack layout item → ∀ (fuel : Nat) (rest : List Char),
      2 * (renderAt layout depth item ++ (moreItems layout depth items
        ++ (layout.newLine outer ++ ']' :: rest))).length + 1 < fuel →
      readItems? fuel (renderAt layout depth item ++ (moreItems layout depth items
        ++ (layout.newLine outer ++ ']' :: rest))) = some (item :: items, rest) := by
  have close (rest : List Char) : Stops (layout.newLine outer ++ ']' :: rest) :=
    stops_newLine layout outer (stops_cons _ (by decide))
  induction items with
  | nil =>
    intro item back fuel rest enough
    obtain ⟨fuel, rfl⟩ : ∃ less, fuel = less + 1 := ⟨fuel - 1, by omega⟩
    rw [moreItems, List.nil_append] at enough ⊢
    rw [readItems?, back depth fuel _ (close rest) (by omega)]
    simp only [Option.bind_eq_bind, Option.bind_some, skipBlank_newLine,
      skipBlank_cons (show isBlank ']' = false from rfl)]
    rfl
  | cons next items ih =>
    intro item back fuel rest enough
    obtain ⟨fuel, rfl⟩ : ∃ less, fuel = less + 1 := ⟨fuel - 1, by omega⟩
    have stops := stops_moreItems layout depth (next :: items) (close rest)
    rw [readItems?, back depth fuel _ stops (by omega)]
    have more := ih (fun item mem => readsBack item (List.mem_cons_of_mem _ mem))
      (readsBack next List.mem_cons_self) fuel rest
    simp only [moreItems, List.cons_append, List.append_assoc, List.length_append,
      List.length_cons] at enough more ⊢
    simp only [Option.bind_eq_bind, Option.bind_some,
      skipBlank_cons (show isBlank ',' = false from rfl), readItems?_newLine,
      more (by omega)]
    rfl

/-! ## Members -/

theorem stops_moreMembers (layout : Layout) (depth : Nat) (members : List (Option String × Json))
    {text : List Char} (stops : Stops text) : Stops (moreMembers layout depth members ++ text) := by
  cases members with
  | nil => exact stops
  | cons member members => exact stops_cons _ (by decide)

theorem readValue?_colon (layout : Layout) (fuel : Nat) (text : List Char) :
    ∃ blanks, layout.colon ++ text = ':' :: (blanks ++ text) ∧
      readValue? fuel (blanks ++ text) = readValue? fuel text := by
  cases layout with
  | compact => exact ⟨[], rfl, rfl⟩
  | indented =>
    refine ⟨[' '], rfl, ?_⟩
    cases fuel with
    | zero => rw [readValue?, readValue?]
    | succ fuel =>
      rw [readValue?, readValue?, List.singleton_append, skipBlank,
        List.dropWhile_cons_of_pos (by decide), ← skipBlank]

/-- Reading members goes on behind the value of the first, at a comma or the closing bracket. -/
theorem readMembers?_member (layout : Layout) (depth : Nat) {name : String} {value : Json}
    (back : ReadsBack layout value) {fuel : Nat} {tail rest : List Char} (stops : Stops tail)
    (enough : 2 * (renderAt layout depth value ++ tail).length < fuel) {c : Char}
    (after : skipBlank tail = c :: rest) (mark : c = ',' ∨ c = '\x7d') :
    readMembers? (fuel + 1) (renderString (some name)
        ++ (layout.colon ++ (renderAt layout depth value ++ tail))) =
      if c = ',' then (readMembers? fuel rest).map fun (members, rest) =>
        ((some name, value) :: members, rest)
      else some ([(some name, value)], rest) := by
  obtain ⟨blanks, colon, blank⟩ :=
    readValue?_colon layout fuel (renderAt layout depth value ++ tail)
  rw [colon, readMembers?]
  simp only [renderString, quote, List.cons_append, List.append_assoc, List.nil_append,
    skipBlank_cons (show isBlank '"' = false from rfl), readString?_quote,
    skipBlank_cons (show isBlank ':' = false from rfl), Option.bind_eq_bind, Option.bind_some,
    blank, back depth fuel tail stops enough, after]
  rcases mark with rfl | rfl
  · rw [if_pos rfl]
    show ((readMembers? fuel rest).bind fun more => some ((some name, value) :: more.1, more.2)) = _
    cases readMembers? fuel rest <;> rfl
  · rfl

theorem readMembers?_render (layout : Layout) (depth outer : Nat)
    {members : List (Option String × Json)}
    (readsBack : ∀ member ∈ members, member.1.isSome ∧ ReadsBack layout member.2) :
    ∀ (name : String) {value : Json}, ReadsBack layout value → ∀ (fuel : Nat) (rest : List Char),
      2 * (renderString (some name) ++ (layout.colon ++ (renderAt layout depth value
        ++ (moreMembers layout depth members
          ++ (layout.newLine outer ++ '\x7d' :: rest))))).length + 1 < fuel →
      readMembers? fuel (renderString (some name) ++ (layout.colon ++ (renderAt layout depth value
        ++ (moreMembers layout depth members ++ (layout.newLine outer ++ '\x7d' :: rest))))) =
        some ((some name, value) :: members, rest) := by
  have close (rest : List Char) : Stops (layout.newLine outer ++ '\x7d' :: rest) :=
    stops_newLine layout outer (stops_cons _ (by decide))
  induction members with
  | nil =>
    intro name value back fuel rest enough
    obtain ⟨fuel, rfl⟩ : ∃ less, fuel = less + 1 := ⟨fuel - 1, by omega⟩
    rw [moreMembers, List.nil_append] at enough ⊢
    have after : skipBlank (layout.newLine outer ++ '\x7d' :: rest) = '\x7d' :: rest := by
      rw [skipBlank_newLine, skipBlank_cons rfl]
    rw [List.length_append, List.length_append] at enough
    rw [readMembers?_member layout depth back (close rest) (by omega) after (Or.inr rfl)]
    rfl
  | cons next members ih =>
    intro name value back fuel rest enough
    obtain ⟨fuel, rfl⟩ : ∃ less, fuel = less + 1 := ⟨fuel - 1, by omega⟩
    obtain ⟨name', value'⟩ := next
    obtain ⟨named, back'⟩ := readsBack _ List.mem_cons_self
    obtain ⟨text, rfl⟩ := Option.isSome_iff_exists.1 named
    have stops := stops_moreMembers layout depth ((some text, value') :: members) (close rest)
    have more := ih (fun member mem => readsBack member (List.mem_cons_of_mem _ mem)) text back'
      fuel rest
    simp only [moreMembers, List.cons_append, List.append_assoc, List.length_append,
      List.length_cons] at enough more stops ⊢
    rw [readMembers?_member layout depth back stops ?_ (skipBlank_cons rfl _) (Or.inl rfl),
      if_pos rfl, readMembers?_newLine, more (by omega), Option.map_some]
    simp only [List.length_append, List.length_cons]
    omega

/-! ## Documents -/

/-- A number begins with a digit or a minus. -/
theorem head_render {n : Number} (wellFormed : n.WellFormed) :
    ∃ c text, n.render = c :: text ∧ (c = '-' ∨ c.isDigit = true) := by
  obtain ⟨first, more, whole⟩ := List.exists_cons_of_ne_nil wellFormed.whole_ne_nil
  have digit := wellFormed.whole_digits first (by simp [whole])
  simp only [Number.render, List.append_assoc, whole, List.cons_append]
  cases n.negative with
  | true => exact ⟨'-', _, rfl, Or.inl rfl⟩
  | false => exact ⟨first, _, rfl, Or.inr digit⟩

theorem readScalar?_number {n : Number} (wellFormed : n.WellFormed) {rest : List Char}
    (stops : Stops rest) : readScalar? (n.render ++ rest) = some (number n, rest) := by
  have back := readNumber?_render n wellFormed stops
  obtain ⟨c, text, begins, other⟩ := head_render wellFormed
  rw [begins, List.cons_append] at back ⊢
  rw [readScalar?, back]
  · rfl
  all_goals
    rintro tail e
    obtain ⟨rfl, -⟩ := List.cons.inj e
    exact absurd other (by decide)

theorem isBlank_of_isDigit {c : Char} (digit : c.isDigit = true) :
    isBlank c = false ∧ c ≠ '"' ∧ c ≠ '[' ∧ c ≠ ']' ∧ c ≠ '\x7b' ∧ c ≠ '\x7d' := by
  simp only [isBlank, Bool.or_eq_false_iff, decide_eq_false_iff_not]
  refine ⟨⟨⟨⟨?_, ?_⟩, ?_⟩, ?_⟩, ?_, ?_, ?_, ?_, ?_⟩
  all_goals
    rintro rfl
    cases digit

/-- What begins a document is no blank and closes nothing. -/
theorem head_renderAt (layout : Layout) (depth : Nat) {document : Json}
    (written : Written document) :
    ∃ c text, renderAt layout depth document = c :: text ∧ isBlank c = false ∧ c ≠ ']' ∧
      c ≠ '\x7d' := by
  cases written with
  | null => rw [renderAt]; exact ⟨'n', _, rfl, by decide⟩
  | boolean value =>
    cases value with
    | true => rw [renderAt]; exact ⟨'t', _, rfl, by decide⟩
    | false => rw [renderAt]; exact ⟨'f', _, rfl, by decide⟩
  | number wellFormed =>
    obtain ⟨c, text, begins, minus | digit⟩ := head_render wellFormed
    · rw [renderAt]
      exact ⟨c, text, begins, by rw [minus]; decide⟩
    · obtain ⟨blank, -, -, bracket, -, brace⟩ := isBlank_of_isDigit digit
      rw [renderAt]
      exact ⟨c, text, begins, blank, bracket, brace⟩
  | string text => rw [renderAt]; exact ⟨'"', _, rfl, by decide⟩
  | @array items _ =>
    cases items with
    | nil => rw [renderAt]; exact ⟨'[', _, rfl, by decide⟩
    | cons item items => rw [renderAt]; exact ⟨'[', _, rfl, by decide⟩
  | @object members _ _ =>
    cases members with
    | nil => rw [renderAt]; exact ⟨'\x7b', _, rfl, by decide⟩
    | cons member members => rw [renderAt]; exact ⟨'\x7b', _, rfl, by decide⟩

theorem readValue?_scalar {c : Char} {text : List Char} (fuel : Nat) (blank : isBlank c = false)
    (other : c ≠ '"' ∧ c ≠ '[' ∧ c ≠ '\x7b') :
    readValue? (fuel + 1) (c :: text) = readScalar? (c :: text) := by
  rw [readValue?, skipBlank_cons blank]
  split
  · next e => exact absurd (List.cons.inj e).1 other.1
  · next e => exact absurd (List.cons.inj e).1 other.2.1
  · next e => exact absurd (List.cons.inj e).1 other.2.2
  · rfl

theorem readsBack_number (layout : Layout) {n : Number} (wellFormed : n.WellFormed) :
    ReadsBack layout (number n) := by
  intro depth fuel rest stops enough
  obtain ⟨fuel, rfl⟩ : ∃ less, fuel = less + 1 := ⟨fuel - 1, by omega⟩
  have scalar := readScalar?_number wellFormed stops
  obtain ⟨c, text, begins, other⟩ := head_render wellFormed
  rw [begins, List.cons_append] at scalar
  rw [renderAt, begins, List.cons_append]
  rcases other with rfl | digit
  · rw [readValue?_scalar fuel rfl (by decide), scalar]
  · obtain ⟨blank, quote, bracket, -, brace, -⟩ := isBlank_of_isDigit digit
    rw [readValue?_scalar fuel blank ⟨quote, bracket, brace⟩, scalar]

theorem readsBack_array (layout : Layout) {items : List Json}
    (written : ∀ item ∈ items, Written item) (back : ∀ item ∈ items, ReadsBack layout item) :
    ReadsBack layout (array items) := by
  intro depth fuel rest stops enough
  obtain ⟨fuel, rfl⟩ : ∃ less, fuel = less + 1 := ⟨fuel - 1, by omega⟩
  cases items with
  | nil =>
    rw [renderAt, List.cons_append, readValue?, skipBlank_cons rfl]
    simp only [List.singleton_append, skipBlank_cons (show isBlank ']' = false from rfl)]
  | cons item items =>
    obtain ⟨c, text, begins, blank, bracket, -⟩ :=
      head_renderAt layout (depth + 1) (written item List.mem_cons_self)
    have more := readItems?_render layout (depth + 1) depth
      (fun item mem => back item (List.mem_cons_of_mem _ mem)) (back item List.mem_cons_self) fuel
      rest
    have begin : skipBlank (layout.newLine (depth + 1) ++ (renderAt layout (depth + 1) item
        ++ (moreItems layout (depth + 1) items ++ (layout.newLine depth ++ ']' :: rest)))) =
        renderAt layout (depth + 1) item
          ++ (moreItems layout (depth + 1) items ++ (layout.newLine depth ++ ']' :: rest)) := by
      rw [skipBlank_newLine, begins, List.cons_append, skipBlank_cons blank]
    rw [renderAt] at enough ⊢
    simp only [List.cons_append, List.append_assoc, List.nil_append, List.length_cons,
      List.length_append] at enough more ⊢
    rw [readValue?, skipBlank_cons rfl]
    simp only [begin]
    split
    · next rest' begins' =>
      rw [begins, List.cons_append] at begins'
      exact absurd (List.cons.inj begins').1 bracket
    · rw [more (by omega), Option.map_some]

theorem readsBack_object (layout : Layout) {members : List (Option String × Json)}
    (named : ∀ member ∈ members, member.1.isSome)
    (back : ∀ member ∈ members, ReadsBack layout member.2) :
    ReadsBack layout (object members) := by
  intro depth fuel rest stops enough
  obtain ⟨fuel, rfl⟩ : ∃ less, fuel = less + 1 := ⟨fuel - 1, by omega⟩
  cases members with
  | nil =>
    rw [renderAt, List.cons_append, readValue?, skipBlank_cons rfl]
    simp only [List.singleton_append, skipBlank_cons (show isBlank '\x7d' = false from rfl)]
  | cons member members =>
    obtain ⟨name, value⟩ := member
    obtain ⟨text, rfl⟩ := Option.isSome_iff_exists.1 (named _ List.mem_cons_self)
    have more := readMembers?_render layout (depth + 1) depth
      (fun member mem => ⟨named member (List.mem_cons_of_mem _ mem),
        back member (List.mem_cons_of_mem _ mem)⟩) text (back _ List.mem_cons_self) fuel rest
    have begin (tail : List Char) : skipBlank (layout.newLine (depth + 1)
        ++ (renderString (some text) ++ tail)) = renderString (some text) ++ tail := by
      rw [skipBlank_newLine, renderString, quote, List.cons_append, skipBlank_cons rfl]
    rw [renderAt] at enough ⊢
    simp only [List.cons_append, List.append_assoc, List.nil_append, List.length_cons,
      List.length_append] at enough more ⊢
    rw [readValue?, skipBlank_cons rfl]
    simp only [begin]
    split
    · next rest' begins =>
      exact absurd (List.cons.inj begins).1 (by decide)
    · rw [more (by omega), Option.map_some]

theorem readsBack_of_written (layout : Layout) {document : Json} (written : Written document) :
    ReadsBack layout document := by
  induction written with
  | null =>
    intro depth fuel rest stops enough
    obtain ⟨fuel, rfl⟩ : ∃ less, fuel = less + 1 := ⟨fuel - 1, by omega⟩
    rw [renderAt]
    exact readValue?_scalar fuel rfl (by decide)
  | boolean value =>
    intro depth fuel rest stops enough
    obtain ⟨fuel, rfl⟩ : ∃ less, fuel = less + 1 := ⟨fuel - 1, by omega⟩
    cases value <;>
    · rw [renderAt]
      exact readValue?_scalar fuel rfl (by decide)
  | number wellFormed => exact readsBack_number layout wellFormed
  | string text =>
    intro depth fuel rest stops enough
    obtain ⟨fuel, rfl⟩ : ∃ less, fuel = less + 1 := ⟨fuel - 1, by omega⟩
    simp only [renderAt, renderString, quote, List.cons_append, List.append_assoc,
      List.nil_append]
    rw [readValue?, skipBlank_cons rfl]
    simp only [readString?_quote, Option.map_some]
  | array written back => exact readsBack_array layout written back
  | object named written back => exact readsBack_object layout named back

/-- A document reads back from its text, blanks behind it included. -/
theorem read?_render (layout : Layout) {document : Json} (written : Written document)
    {blanks : List Char} (blank : ∀ c ∈ blanks, isBlank c = true) :
    read? (document.render layout ++ blanks) = some document := by
  have stops : Stops blanks := by
    intro c head
    have c_blank := blank c (List.mem_of_mem_head? head)
    refine ⟨Bool.eq_false_iff.2 fun digit => ?_, ?_, ?_, ?_⟩
    · rw [(isBlank_of_isDigit digit).1] at c_blank
      cases c_blank
    all_goals
      rintro rfl
      cases c_blank
  have back := readsBack_of_written layout written 0
    (2 * (document.render layout ++ blanks).length + 2) blanks stops (by rw [render]; omega)
  have skipped : skipBlank (blanks ++ []) = skipBlank [] := List.dropWhile_append_of_pos blank
  rw [List.append_nil] at skipped
  rw [← render] at back
  simp only [read?, back, skipped]
  rfl

end BenchLog.Json
