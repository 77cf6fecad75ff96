import BenchLog.Proofs.Decimal.Grammar
import BenchLog.Proofs.Text.Blank
import BenchLog.Proofs.Toml.Strings
import BenchLog.Toml.Printer

/-!
# TOML statements read back

`SpellsDocument` says which texts spell statements, one on a line: names bare or in quotes, strings
in any notation, spaces where they may stand, and empty lines before, between and behind the
statements. What spells statements is read as these statements (`readStatements?_of_spells`), and
statements that are written one after the other are spelled so (`spellsDocument_write`).
-/

namespace BenchLog.Toml

def IsSpaces (text : List Char) : Prop := ∀ c ∈ text, isSpace c = true

/-- A name in a key, which may be bare or a string on one line. -/
inductive SpellsName : String → List Char → Prop
  | bare {name : String} : name.toList ≠ [] → (∀ c ∈ name.toList, isBareKeyChar c = true) →
      SpellsName name name.toList
  | basic {name : String} {written : List Char} : SpellsLine SpellsBasic name.toList written →
      SpellsName name ('"' :: (written ++ ['"']))
  | literal {name : String} {written : List Char} : SpellsLine SpellsLiteral name.toList written →
      SpellsName name ('\'' :: (written ++ ['\'']))

/-- A string, a natural number in decimal digits or an array without items. -/
inductive SpellsValue : Toml → List Char → Prop
  | string {value : String} {written : List Char} : SpellsText value.toList written →
      SpellsValue (.string value) written
  | natural {n : Nat} : fitsSigned64 n = true → SpellsValue (.integer n) (Nat.toDigits 10 n)
  | noItems {filler : List Char} : IsFiller filler →
      SpellsValue (.array []) ('[' :: (filler ++ [']']))

/-- A statement with a name alone for its path. -/
inductive SpellsStatement : Statement → List Char → Prop
  | entry {name : String} {value : Toml} {key before after written : List Char} :
      SpellsName name key → IsSpaces before → IsSpaces after → SpellsValue value written →
      SpellsStatement (.entry ⟨[], name⟩ value) (key ++ (before ++ '=' :: (after ++ written)))
  | element {name : String} {key before after : List Char} :
      SpellsName name key → IsSpaces before → IsSpaces after →
      SpellsStatement (.element ⟨[], name⟩)
        ('[' :: '[' :: (before ++ (key ++ (after ++ [']', ']']))))

/-- Statements in turn. The last line may lack its end. -/
inductive SpellsDocument : List Statement → List Char → Prop
  | nothing {filler : List Char} : IsFiller filler → SpellsDocument [] filler
  | last {statement : Statement} {filler written spaces : List Char} : IsFiller filler →
      SpellsStatement statement written → IsSpaces spaces →
      SpellsDocument [statement] (filler ++ (written ++ spaces))
  | line {statement : Statement} {more : List Statement}
      {filler written spaces ending document : List Char} : IsFiller filler →
      SpellsStatement statement written → IsSpaces spaces → IsNewline ending →
      SpellsDocument more document →
      SpellsDocument (statement :: more) (filler ++ (written ++ (spaces ++ (ending ++ document))))

/-! ## Runs of characters -/

theorem skipSpace_append {spaces : List Char} (all : IsSpaces spaces) {rest : List Char}
    (stop : ∀ c ∈ rest.head?, isSpace c = false) : skipSpace (spaces ++ rest) = rest :=
  (span_append all stop).2

theorem skipFiller_append {filler : List Char} (filled : IsFiller filler) {rest : List Char}
    (firm : StartsFirm rest) (noComment : rest.head? ≠ some '#') :
    skipFiller false (filler ++ rest) = rest := by
  induction filled with
  | nothing =>
    cases rest with
    | nil => rfl
    | cons c rest =>
      obtain ⟨space, feed, carriage⟩ := firm c rfl
      have comment : c ≠ '#' := fun same => noComment (congrArg some same)
      rw [List.nil_append, skipFiller]
      · simp [space, comment]
      · exact feed
      · exact fun _ e => absurd e carriage
  | @space c filler space _ ih =>
    rw [List.cons_append]
    rcases eq_of_isSpace space with rfl | rfl
    · rw [skipFiller] <;> simp [isSpace, ih]
    · rw [skipFiller] <;> simp [isSpace, ih]
  | newline newline _ ih =>
    rw [List.append_assoc]
    rcases newline with rfl | rfl
    · exact ih
    · exact ih

/-! ## Keys -/

theorem readKeyPart?_of_spells {name : String} {key : List Char} (spelled : SpellsName name key)
    {rest : List Char} (stop : ∀ c ∈ rest.head?, isBareKeyChar c = false) :
    readKeyPart? (key ++ rest) = some (name, rest) := by
  cases spelled with
  | bare nonempty all =>
    obtain ⟨first, more, split⟩ := List.exists_cons_of_ne_nil nonempty
    have bare := all first (split ▸ List.mem_cons_self)
    obtain ⟨taken, left⟩ := span_append all stop
    rw [split] at taken left nonempty ⊢
    rw [List.cons_append] at taken left ⊢
    rw [readKeyPart?]
    · rw [taken, left, List.isEmpty_eq_false_iff.2 nonempty, ← split, String.ofList_toList]
      rfl
    · rintro tail ⟨⟩
      cases bare
    · rintro tail ⟨⟩
      cases bare
  | basic spelled =>
    have line := read?_of_spellsLine (fun spelled => readBasic?_char spelled false)
      readBasic?_close spelled rest
    rw [List.cons_append, List.append_assoc, List.singleton_append, readKeyPart?, line]
    simp only [Option.map_some, String.ofList_toList]
  | literal spelled =>
    have line := read?_of_spellsLine (fun spelled => readLiteral?_char spelled false)
      readLiteral?_close spelled rest
    rw [List.cons_append, List.append_assoc, List.singleton_append, readKeyPart?, line]
    simp only [Option.map_some, String.ofList_toList]

/-- What a name or a statement begins with. -/
structure IsStart (c : Char) : Prop where
  space : isSpace c = false
  feed : c ≠ '\n'
  carriage : c ≠ '\r'
  comment : c ≠ '#'
  mark : c ≠ '\uFEFF'

theorem isStart_of_isBareKeyChar {c : Char} (bare : isBareKeyChar c = true) :
    IsStart c ∧ c ≠ '[' := by
  refine ⟨⟨Bool.eq_false_iff.2 fun space => ?_, ?_, ?_, ?_, ?_⟩, ?_⟩
  · rcases eq_of_isSpace space with rfl | rfl <;> cases bare
  all_goals
    rintro rfl
    cases bare

theorem exists_start_of_spellsName {name : String} {key : List Char}
    (spelled : SpellsName name key) : ∃ c more, key = c :: more ∧ IsStart c ∧ c ≠ '[' := by
  cases spelled with
  | bare nonempty all =>
    obtain ⟨first, more, split⟩ := List.exists_cons_of_ne_nil nonempty
    exact ⟨first, more, split, isStart_of_isBareKeyChar (all first (split ▸ List.mem_cons_self))⟩
  | basic _ =>
    exact ⟨_, _, rfl, ⟨by decide, by decide, by decide, by decide, by decide⟩, by decide⟩
  | literal _ =>
    exact ⟨_, _, rfl, ⟨by decide, by decide, by decide, by decide, by decide⟩, by decide⟩

/-- A name with spaces around it is read as a key, up to what ends it. -/
theorem readKey?_of_spells {name : String} {key before after : List Char}
    (spelled : SpellsName name key) (spaces : IsSpaces before) (spaces' : IsSpaces after) {c : Char}
    (stop : isBareKeyChar c = false ∧ isSpace c = false ∧ c ≠ '.') (rest : List Char) :
    readKey? (before ++ (key ++ (after ++ c :: rest))) = some (⟨[], name⟩, c :: rest) := by
  obtain ⟨bare, space, dot⟩ := stop
  have stop' : ∀ d ∈ (after ++ c :: rest).head?, isBareKeyChar d = false := by
    intro d first
    cases after with
    | nil => exact Option.some.inj first ▸ bare
    | cons d' after =>
      obtain rfl := Option.some.inj first
      refine Bool.eq_false_iff.2 fun bare' => ?_
      have space' := spaces' d' List.mem_cons_self
      rw [(isStart_of_isBareKeyChar bare').1.space] at space'
      cases space'
  have front : skipSpace (before ++ (key ++ (after ++ c :: rest))) =
      key ++ (after ++ c :: rest) := by
    obtain ⟨first, more, rfl, start, -⟩ := exists_start_of_spellsName spelled
    exact skipSpace_append spaces fun d first' => Option.some.inj first' ▸ start.space
  have back : skipSpace (after ++ c :: rest) = c :: rest :=
    skipSpace_append spaces' fun d first => Option.some.inj first ▸ space
  show readKeyUpTo? (78 + 1) _ = _
  rw [readKeyUpTo?, front, readKeyPart?_of_spells spelled stop']
  simp only [Option.bind_eq_bind, Option.bind_some, back]
  split
  · next e => exact absurd (List.cons.inj e).1 dot
  · rfl

/-! ## Values -/

section Digits

variable {digits : List Char} (all : ∀ c ∈ digits, c.isDigit = true)

include all

theorem digits?_of_digits (nonempty : digits ≠ []) : digits? Char.isDigit digits = some digits := by
  induction digits with
  | nil => exact absurd rfl nonempty
  | cons c digits ih =>
    have digit := all c List.mem_cons_self
    cases digits with
    | nil => rw [digits?, if_pos digit]
    | cons d digits =>
      have rest := ih (fun d' mem => all d' (List.mem_cons_of_mem c mem))
        (List.cons_ne_nil d digits)
      rw [digits?, if_pos digit, rest]
      · rfl
      · exact fun none => nomatch none
      · rintro more ⟨⟩
        cases all '_' (List.mem_cons_of_mem c List.mem_cons_self)

/-- A text with a character that is no digit is no text of digits. -/
theorem ne_of_digits {text : List Char} {c : Char} (mem : c ∈ text) (other : c.isDigit = false) :
    digits ≠ text := by
  rintro rfl
  rw [all c mem] at other
  cases other

theorem isDate_of_digits : isDate digits = false := by
  unfold isDate
  split
  · exact absurd rfl (ne_of_digits all (c := '-') (by simp) rfl)
  · rfl

theorem isTime_of_digits : isTime digits = false := by
  unfold isTime takeTime?
  split
  · exact absurd rfl (ne_of_digits all (c := ':') (by simp) rfl)
  · rfl

theorem isDateTime_of_digits : isDateTime digits = false := by
  have front : isDate (digits.take 10) = false :=
    isDate_of_digits fun c mem => all c (List.mem_of_mem_take mem)
  simp [isDateTime, isDate_of_digits all, isTime_of_digits all, front]

end Digits

theorem wholeDigits?_toDigits (n : Nat) :
    wholeDigits? (Nat.toDigits 10 n) = some (Nat.toDigits 10 n) := by
  rw [wholeDigits?, digits?_of_digits (fun c => isDigit_of_mem_toDigits) Nat.toDigits_ne_nil]
  simp only [Option.bind_eq_bind, Option.bind_some]
  rw [if_neg]
  intro leading
  simp only [Bool.and_eq_true, decide_eq_true_eq] at leading
  have zero := head?_toDigits leading.1
  subst zero
  exact leading.2 rfl

theorem integer?_toDigits {n : Nat} (fits : fitsSigned64 n = true) :
    integer? (Nat.toDigits 10 n) = some (n : Int) := by
  have all : ∀ c ∈ Nat.toDigits 10 n, c.isDigit = true := fun c => isDigit_of_mem_toDigits
  obtain ⟨first, more, split, digit⟩ := exists_toDigits_eq n
  have sign : takeSign (first :: more) = (false, first :: more) :=
    takeSign_append .none (by rintro c ⟨⟩; exact ne_sign_of_isDigit digit)
  rw [← split] at sign
  rw [integer?]
  · rw [sign]
    simp only [wholeDigits?_toDigits, Option.bind_eq_bind, Option.bind_some, digitsValue_toDigits]
    exact if_pos fits
  all_goals
    intro text
    exact ne_of_digits all (List.mem_cons_of_mem '0' List.mem_cons_self) rfl

/-- What may stand behind a value on its line. -/
def EndsValue (rest : List Char) : Prop := ∀ c ∈ rest.head?, isSpace c = true ∨ c = '\n' ∨ c = '\r'

theorem EndsValue.stops {rest : List Char} (ends : EndsValue rest) :
    ∀ c ∈ rest.head?, isWordChar c = false ∧ c ≠ '"' ∧ c ≠ '\'' := by
  intro c first
  rcases ends c first with space | rfl | rfl
  · rcases eq_of_isSpace space with rfl | rfl <;> decide
  · decide
  · decide

theorem readWord?_toDigits {n : Nat} (fits : fitsSigned64 n = true) {rest : List Char}
    (ends : EndsValue rest) :
    readWord? (Nat.toDigits 10 n ++ rest) = some (.integer n, rest) := by
  have all : ∀ c ∈ Nat.toDigits 10 n, c.isDigit = true := fun c => isDigit_of_mem_toDigits
  have word : ∀ c ∈ Nat.toDigits 10 n, isWordChar c = true := fun c mem => by
    simp [isWordChar, Char.isAlphanum, all c mem]
  obtain ⟨taken, left⟩ := span_append word fun c first => (ends.stops c first).1
  have span : spanWord (Nat.toDigits 10 n ++ rest) = (Nat.toDigits 10 n, rest) := by
    rw [spanWord, taken, left]
  have value : ofWord? (Nat.toDigits 10 n) = some (.integer n) := by
    unfold ofWord?
    rw [if_neg (ne_of_digits all (c := 't') (by decide) rfl),
      if_neg (ne_of_digits all (c := 'f') (by decide) rfl), isDateTime_of_digits all,
      integer?_toDigits fits]
    rfl
  unfold readWord?
  rw [span]
  dsimp only
  split
  · rw [isDate_of_digits all, value]
    rfl
  · rw [value]
    rfl

/-- Behind a digit no string begins. -/
theorem readText?_of_isDigit {c : Char} (digit : c.isDigit = true) (rest : List Char) :
    readText? (c :: rest) = none := by
  unfold readText?
  split
  all_goals first
    | rfl
    | next e =>
      cases e
      cases digit

theorem exists_quote_of_spellsText {text written : List Char} (spelled : SpellsText text written) :
    ∃ c more, written = c :: more ∧ IsStart c ∧ c ≠ '[' ∧ c ≠ '\x7b' := by
  cases spelled with
  | basic _ => exact ⟨'"', _, rfl, by constructor <;> decide, by decide⟩
  | basicLines _ _ => exact ⟨'"', _, rfl, by constructor <;> decide, by decide⟩
  | literal _ => exact ⟨'\'', _, rfl, by constructor <;> decide, by decide⟩
  | literalLines _ _ => exact ⟨'\'', _, rfl, by constructor <;> decide, by decide⟩

theorem isStart_of_isDigit {c : Char} (digit : c.isDigit = true) :
    IsStart c ∧ c ≠ '[' ∧ c ≠ '\x7b' := by
  have bare : isBareKeyChar c = true := by simp [isBareKeyChar, Char.isAlphanum, digit]
  obtain ⟨start, bracket⟩ := isStart_of_isBareKeyChar bare
  refine ⟨start, bracket, ?_⟩
  rintro rfl
  cases digit

theorem exists_start_of_spellsValue {value : Toml} {written : List Char}
    (spelled : SpellsValue value written) : ∃ c more, written = c :: more ∧ IsStart c := by
  cases spelled with
  | string spelled =>
    obtain ⟨c, more, split, start, -⟩ := exists_quote_of_spellsText spelled
    exact ⟨c, more, split, start⟩
  | @natural n _ =>
    obtain ⟨first, more, split, digit⟩ := exists_toDigits_eq n
    exact ⟨first, more, split, (isStart_of_isDigit digit).1⟩
  | noItems _ => exact ⟨'[', _, rfl, by constructor <;> decide⟩

theorem readValue?_plain {c : Char} (other : c ≠ '[' ∧ c ≠ '\x7b') (depth : Nat)
    (rest : List Char) :
    readValue? (depth + 1) (c :: rest) = readValue?.readPlain? (c :: rest) := by
  rw [readValue?]
  · exact fun _ e => other.1 (List.cons.inj e).1
  · exact fun _ e => other.2 (List.cons.inj e).1

/-- A value is read up to its end. -/
theorem readValue?_of_spells {value : Toml} {written : List Char}
    (spelled : SpellsValue value written) {rest : List Char} (ends : EndsValue rest) :
    readValue? deepestNesting (written ++ rest) = some (value, rest) := by
  show readValue? (78 + 1) _ = _
  cases spelled with
  | @string value written spelled =>
    have text := readText?_of_spells spelled fun c first => (ends.stops c first).2
    obtain ⟨c, more, rfl, -, other⟩ := exists_quote_of_spellsText spelled
    rw [List.cons_append] at text ⊢
    rw [readValue?_plain other, readValue?.readPlain?, text]
    simp only [String.ofList_toList]
  | @natural n fits =>
    have word := readWord?_toDigits fits ends
    obtain ⟨first, more, split, digit⟩ := exists_toDigits_eq n
    rw [split, List.cons_append] at word ⊢
    rw [readValue?_plain (isStart_of_isDigit digit).2, readValue?.readPlain?,
      readText?_of_isDigit digit]
    exact word
  | @noItems filler filled =>
    have firm : StartsFirm (']' :: rest) := by rintro c ⟨⟩; decide
    rw [List.cons_append, List.append_assoc, List.singleton_append, readValue?]
    dsimp only
    rw [skipFiller_append filled firm (by simp)]
    rfl

/-! ## Statements -/

theorem takeLineEnd?_newline {spaces ending : List Char} (all : IsSpaces spaces)
    (newline : IsNewline ending) (rest : List Char) :
    takeLineEnd? (spaces ++ (ending ++ rest)) = some rest := by
  have stop : skipSpace (spaces ++ (ending ++ rest)) = ending ++ rest := by
    refine skipSpace_append all ?_
    rcases newline with rfl | rfl <;> rintro c ⟨⟩ <;> rfl
  unfold takeLineEnd?
  rw [stop]
  rcases newline with rfl | rfl <;> rfl

theorem takeLineEnd?_last {spaces : List Char} (all : IsSpaces spaces) :
    takeLineEnd? spaces = some [] := by
  have stop : skipSpace (spaces ++ []) = [] := skipSpace_append all fun c first => nomatch first
  rw [List.append_nil] at stop
  unfold takeLineEnd?
  rw [stop]
  rfl

theorem exists_start_of_spellsStatement {statement : Statement} {written : List Char}
    (spelled : SpellsStatement statement written) : ∃ c more, written = c :: more ∧ IsStart c := by
  cases spelled with
  | entry name _ _ _ =>
    obtain ⟨c, more, rfl, start, -⟩ := exists_start_of_spellsName name
    exact ⟨c, _, rfl, start⟩
  | element _ _ _ => exact ⟨'[', _, rfl, by constructor <;> decide⟩

/-- A statement is read with the rest of its line. -/
theorem readStatement?_of_spells {statement : Statement} {written : List Char}
    (spelled : SpellsStatement statement written) {line rest : List Char} (ends : EndsValue line)
    (taken : takeLineEnd? line = some rest) :
    readStatement? (written ++ line) = some (statement, rest) := by
  cases spelled with
  | @entry name value key before after written spelled spaces spaces' valued =>
    have nothing : IsSpaces [] := fun c mem => nomatch mem
    have path := readKey?_of_spells spelled nothing spaces (c := '=') (by decide)
      (after ++ (written ++ line))
    have read := readValue?_of_spells valued ends
    have front : skipSpace (after ++ (written ++ line)) = written ++ line := by
      obtain ⟨c, more, rfl, start⟩ := exists_start_of_spellsValue valued
      exact skipSpace_append spaces' fun d first => Option.some.inj first ▸ start.space
    simp only [List.nil_append, List.append_assoc, List.cons_append] at path ⊢
    rw [readStatement?]
    · simp only [path, Option.bind_eq_bind, Option.bind_some, front, read, taken]
      rfl
    all_goals
      intro more e
      obtain ⟨c, rest', rfl, -, bracket⟩ := exists_start_of_spellsName spelled
      exact bracket (List.cons.inj e).1
  | @element name key before after spelled spaces spaces' =>
    have path := readKey?_of_spells spelled spaces spaces' (c := ']') (by decide) (']' :: line)
    simp only [List.append_assoc, List.cons_append, List.nil_append]
    rw [readStatement?, path]
    simp only [Option.bind_eq_bind, Option.bind_some, taken]
    rfl

/-! ## Documents -/

theorem endsValue_spaces {spaces rest : List Char} (all : IsSpaces spaces) (ends : EndsValue rest) :
    EndsValue (spaces ++ rest) := by
  intro c first
  cases spaces with
  | nil => exact ends c first
  | cons d spaces => exact Option.some.inj first ▸ Or.inl (all d List.mem_cons_self)

theorem endsValue_newline {ending : List Char} (newline : IsNewline ending) (rest : List Char) :
    EndsValue (ending ++ rest) := by
  rcases newline with rfl | rfl <;> rintro c ⟨⟩ <;> simp

/-- The first statement of a text is read, and then those of the lines that follow. -/
theorem readStatements?_cons {statement : Statement} {filler written line rest : List Char}
    (filled : IsFiller filler) (spelled : SpellsStatement statement written)
    (ends : EndsValue line) (taken : takeLineEnd? line = some rest) (fuel : Nat) :
    readStatements? (fuel + 1) (filler ++ (written ++ line)) =
      (readStatements? fuel rest).map (statement :: ·) := by
  have read := readStatement?_of_spells spelled ends taken
  obtain ⟨c, more, rfl, start⟩ := exists_start_of_spellsStatement spelled
  have firm : StartsFirm (c :: more ++ line) := by
    rintro d ⟨⟩
    exact ⟨start.space, start.feed, start.carriage⟩
  have noComment : (c :: more ++ line).head? ≠ some '#' :=
    fun first => start.comment (Option.some.inj first)
  rw [readStatements?, skipFiller_append filled firm noComment]
  simp only [List.cons_append] at read ⊢
  simp only [read, Option.bind_eq_bind, Option.bind_some]
  cases readStatements? fuel rest <;> rfl

/-- What spells statements is read as the statements. -/
theorem readStatements?_of_spells {statements : List Statement} {text : List Char}
    (spelled : SpellsDocument statements text) {fuel : Nat} (enough : text.length < fuel) :
    readStatements? fuel text = some statements := by
  induction spelled generalizing fuel with
  | nothing filled =>
    obtain ⟨fuel, rfl⟩ : ∃ n, fuel = n + 1 := ⟨fuel - 1, by omega⟩
    have none := skipFiller_append filled (fun c first => nomatch first : StartsFirm []) (by simp)
    rw [List.append_nil] at none
    rw [readStatements?, none]
  | last filled spelled all =>
    obtain ⟨c, more, rfl, -⟩ := exists_start_of_spellsStatement spelled
    simp only [List.length_append, List.length_cons] at enough
    obtain ⟨fuel, rfl⟩ : ∃ n, fuel = n + 1 + 1 := ⟨fuel - 2, by omega⟩
    have ends := endsValue_spaces all (fun c first => nomatch first : EndsValue [])
    rw [List.append_nil] at ends
    rw [readStatements?_cons filled spelled ends (takeLineEnd?_last all)]
    rfl
  | @line _ _ _ _ _ _ document filled spelled all newline _ ih =>
    obtain ⟨c, more, rfl, -⟩ := exists_start_of_spellsStatement spelled
    simp only [List.length_append, List.length_cons] at enough
    obtain ⟨fuel, rfl⟩ : ∃ n, fuel = n + 1 := ⟨fuel - 1, by omega⟩
    rw [readStatements?_cons filled spelled (endsValue_spaces all (endsValue_newline newline _))
      (takeLineEnd?_newline all newline document), ih (by omega)]
    rfl

theorem head?_ne_mark {filler rest : List Char} (filled : IsFiller filler)
    (noMark : rest.head? ≠ some '\uFEFF') : (filler ++ rest).head? ≠ some '\uFEFF' := by
  cases filled with
  | nothing => exact noMark
  | space space _ =>
    rintro ⟨⟩
    cases space
  | newline newline _ => rcases newline with rfl | rfl <;> simp

theorem dropMark_of_spells {statements : List Statement} {text : List Char}
    (spelled : SpellsDocument statements text) : dropMark text = text := by
  have start {statement : Statement} {written : List Char}
      (spelled : SpellsStatement statement written) (rest : List Char) :
      (written ++ rest).head? ≠ some '\uFEFF' := by
    obtain ⟨c, more, rfl, start⟩ := exists_start_of_spellsStatement spelled
    exact fun first => start.mark (Option.some.inj first)
  have noMark : text.head? ≠ some '\uFEFF' := by
    cases spelled with
    | nothing filled =>
      have nothing : ([] : List Char).head? ≠ some '\uFEFF' := by simp
      rw [← List.append_nil text]
      exact head?_ne_mark filled nothing
    | last filled spelled _ => exact head?_ne_mark filled (start spelled _)
    | line filled spelled _ _ _ => exact head?_ne_mark filled (start spelled _)
  unfold dropMark
  split
  · exact absurd rfl noMark
  · rfl

/-- A document is built of the statements that its text spells. -/
theorem read?_of_spells {statements : List Statement} {text : List Char}
    (spelled : SpellsDocument statements text) : Toml.read? text = ofStatements? statements := by
  rw [Toml.read?, dropMark_of_spells spelled,
    readStatements?_of_spells spelled (Nat.lt_succ_self _)]
  rfl

/-! ## Writing -/

theorem spellsName_writeKeyPart (name : String) : SpellsName name (writeKeyPart name) := by
  unfold writeKeyPart
  split
  · next bare =>
    simp only [Bool.and_eq_true, decide_eq_true_eq, List.all_eq_true] at bare
    exact .bare bare.1 bare.2
  · exact .basic (spellsLine_escape name.toList)

/-- A statement is spelled by what is written for it, on a line of its own. -/
def IsWritten (statement : Statement) : Prop :=
  ∃ filler written, IsFiller filler ∧ SpellsStatement statement written ∧
    writeStatement statement = filler ++ (written ++ ['\n'])

theorem isWritten_entry {name : String} {value : Toml}
    (valued : SpellsValue value (writeValue value)) : IsWritten (.entry ⟨[], name⟩ value) := by
  have space : IsSpaces [' '] := by simp [IsSpaces, isSpace]
  refine ⟨[], _, .nothing, .entry (spellsName_writeKeyPart name) space space valued, ?_⟩
  simp [writeStatement, writeKey]

theorem isWritten_element (name : String) : IsWritten (.element ⟨[], name⟩) := by
  have nothing : IsSpaces [] := fun c mem => nomatch mem
  have line : IsFiller ['\n'] := .newline (Or.inl rfl) .nothing
  refine ⟨['\n'], _, line, .element (spellsName_writeKeyPart name) nothing nothing, ?_⟩
  simp [writeStatement, writeKey]

/-- Statements that are written one after the other are spelled by the text. -/
theorem spellsDocument_write {statements : List Statement}
    (written : ∀ statement ∈ statements, IsWritten statement) :
    SpellsDocument statements (writeDocument statements) := by
  induction statements with
  | nil => exact .nothing .nothing
  | cons statement statements ih =>
    obtain ⟨filler, text, filled, spelled, same⟩ := written statement List.mem_cons_self
    have more := ih fun other mem => written other (List.mem_cons_of_mem statement mem)
    have nothing : IsSpaces [] := fun c mem => nomatch mem
    have line := SpellsDocument.line filled spelled nothing (Or.inl rfl) more
    show SpellsDocument _ (writeStatement statement ++ writeDocument statements)
    rw [same]
    simpa only [List.append_assoc, List.nil_append] using line

end BenchLog.Toml
