import BenchLog.Toml.Text

/-!
# TOML strings read back

`SpellsText` says which texts spell a string, in each of the four notations and with any choice of
escapes. What spells a string is read as this string (`readText?_of_spells`), whatever stands behind
it, if that is no further quote. Quoted on one line, every string is spelled (`spellsText_quote`).
-/

namespace BenchLog.Toml

/-! ## Notations -/

/-- An end of a line. -/
def IsNewline (text : List Char) : Prop := text = ['\n'] ∨ text = ['\r', '\n']

/-- Spaces and ends of lines. -/
inductive IsFiller : List Char → Prop
  | nothing : IsFiller []
  | space {c : Char} {filler : List Char} : isSpace c = true → IsFiller filler →
      IsFiller (c :: filler)
  | newline {ending filler : List Char} : IsNewline ending → IsFiller filler →
      IsFiller (ending ++ filler)

/-- The text begins with neither a space nor an end of a line. -/
def StartsFirm (text : List Char) : Prop :=
  ∀ c ∈ text.head?, isSpace c = false ∧ c ≠ '\n' ∧ c ≠ '\r'

/-- A character between double quotes, as it is or escaped. -/
inductive SpellsBasic : Char → List Char → Prop
  | plain {c : Char} : isPrintable c = true → c ≠ '"' → c ≠ '\\' → SpellsBasic c [c]
  | mark {c mark : Char} : unescape? mark = some c → SpellsBasic c ['\\', mark]
  | code {c a₁ a₂ a₃ a₄ : Char} : charOfCode? [a₁, a₂, a₃, a₄] = some c →
      SpellsBasic c ['\\', 'u', a₁, a₂, a₃, a₄]
  | longCode {c a₁ a₂ a₃ a₄ a₅ a₆ a₇ a₈ : Char} :
      charOfCode? [a₁, a₂, a₃, a₄, a₅, a₆, a₇, a₈] = some c →
      SpellsBasic c ['\\', 'U', a₁, a₂, a₃, a₄, a₅, a₆, a₇, a₈]

/-- A character between single quotes, where there are no escapes. -/
inductive SpellsLiteral : Char → List Char → Prop
  | plain {c : Char} : isPrintable c = true → c ≠ '\'' → SpellsLiteral c [c]

/-- A backslash at the end of a line, and what it joins to the line. -/
inductive IsJoint : List Char → Prop
  | line {spaces ending filler : List Char} : (∀ c ∈ spaces, isSpace c = true) →
      IsNewline ending → IsFiller filler → IsJoint ('\\' :: (spaces ++ (ending ++ filler)))

/-- A string on one line, character by character. -/
inductive SpellsLine (spells : Char → List Char → Prop) : List Char → List Char → Prop
  | nothing : SpellsLine spells [] []
  | char {c : Char} {written text more : List Char} : spells c written →
      SpellsLine spells text more → SpellsLine spells (c :: text) (written ++ more)

/-- A string that may span lines, behind so many quotes that stand for themselves, of which there
are no three in a row. Joints stand for nothing. -/
inductive SpellsLines (quote : Char) (spells : Char → List Char → Prop) (joint : List Char → Prop) :
    Nat → List Char → List Char → Prop
  | nothing {quotes : Nat} : SpellsLines quote spells joint quotes [] []
  | char {quotes : Nat} {c : Char} {written text more : List Char} : spells c written →
      SpellsLines quote spells joint 0 text more →
      SpellsLines quote spells joint quotes (c :: text) (written ++ more)
  | newline {quotes : Nat} {ending text more : List Char} : IsNewline ending →
      SpellsLines quote spells joint 0 text more →
      SpellsLines quote spells joint quotes ('\n' :: text) (ending ++ more)
  | quote {quotes : Nat} {text more : List Char} : quotes < 2 →
      SpellsLines quote spells joint (quotes + 1) text more →
      SpellsLines quote spells joint quotes (quote :: text) (quote :: more)
  | joint {quotes : Nat} {written text more : List Char} : joint written → StartsFirm more →
      SpellsLines quote spells joint 0 text more →
      SpellsLines quote spells joint quotes text (written ++ more)

/-- Between triple quotes the text may begin on a new line. -/
def IsOpening (opening more : List Char) : Prop :=
  IsNewline opening ∨ opening = [] ∧ ∀ c ∈ more.head?, c ≠ '\n' ∧ c ≠ '\r'

/-- The four notations of a string. -/
inductive SpellsText : List Char → List Char → Prop
  | basic {text written : List Char} : SpellsLine SpellsBasic text written →
      SpellsText text ('"' :: (written ++ ['"']))
  | literal {text written : List Char} : SpellsLine SpellsLiteral text written →
      SpellsText text ('\'' :: (written ++ ['\'']))
  | basicLines {text opening written : List Char} : IsOpening opening written →
      SpellsLines '"' SpellsBasic IsJoint 0 text written →
      SpellsText text ('"' :: '"' :: '"' :: (opening ++ (written ++ ['"', '"', '"'])))
  | literalLines {text opening written : List Char} : IsOpening opening written →
      SpellsLines '\'' SpellsLiteral (fun _ => False) 0 text written →
      SpellsText text ('\'' :: '\'' :: '\'' :: (opening ++ (written ++ ['\'', '\'', '\''])))

/-! ## Reading characters -/

theorem eq_of_isSpace {c : Char} (space : isSpace c = true) : c = ' ' ∨ c = '\t' := by
  simpa [isSpace] using space

theorem ne_return_of_isPrintable {c : Char} (printable : isPrintable c = true) : c ≠ '\r' := by
  rintro rfl
  cases printable

theorem readBasic?_char {c : Char} {written : List Char} (spelled : SpellsBasic c written)
    (multiline : Bool) (rest : List Char) :
    readBasic? multiline false (written ++ rest) =
      (readBasic? multiline false rest).map (pushChar c) := by
  cases spelled with
  | plain printable quote backslash =>
    rw [List.singleton_append, readBasic?]
    · simp [printable, backslash]
    · exact fun _ e => absurd e quote
    · exact quote
    · exact fun _ _ _ _ _ e => absurd e backslash
    · exact fun _ _ _ _ _ _ _ _ _ e => absurd e backslash
    · exact fun _ _ e => absurd e backslash
    · exact fun _ e => absurd e (ne_return_of_isPrintable printable)
  | mark unescaped =>
    rw [List.cons_append, List.singleton_append, readBasic?]
    · rw [unescaped]
    · rintro a b c d tail rfl
      cases unescaped
    · rintro a b c d e f g h tail rfl
      cases unescaped
  | code value =>
    simp only [List.cons_append, List.nil_append]
    rw [readBasic?, value]
    rfl
  | longCode value =>
    simp only [List.cons_append, List.nil_append]
    rw [readBasic?, value]
    rfl

theorem readLiteral?_char {c : Char} {written : List Char} (spelled : SpellsLiteral c written)
    (multiline : Bool) (rest : List Char) :
    readLiteral? multiline (written ++ rest) =
      (readLiteral? multiline rest).map (pushChar c) := by
  obtain ⟨printable, quote⟩ := spelled
  rw [List.singleton_append, readLiteral?]
  · simp [printable]
  · exact fun _ e => absurd e quote
  · exact quote
  · exact fun _ e => absurd e (ne_return_of_isPrintable printable)

/-! ## Strings on one line -/

section

variable {quote : Char} {spells : Char → List Char → Prop} {joint : List Char → Prop}
  {text written : List Char} {read? : List Char → Option (List Char × List Char)}

/-- A reader that takes characters as they are spelled, up to a quote, reads what they spell. -/
theorem read?_of_spellsLine
    (char : ∀ {c : Char} {written : List Char}, spells c written → ∀ rest,
      read? (written ++ rest) = (read? rest).map (pushChar c))
    (close : ∀ rest, read? (quote :: rest) = some ([], rest))
    (spelled : SpellsLine spells text written) (rest : List Char) :
    read? (written ++ quote :: rest) = some (text, rest) := by
  induction spelled with
  | nothing => exact close rest
  | char first _ ih => rw [List.append_assoc, char first, ih]; rfl

/-! ## Strings that span lines -/

theorem closeTriple_of_stop {rest : List Char} (stop : rest.head? ≠ some quote) :
    closeTriple quote rest = ([], rest) ∧ closeTriple quote (quote :: rest) = ([quote], rest) ∧
      closeTriple quote (quote :: quote :: rest) = ([quote, quote], rest) := by
  match rest with
  | [] => simp [closeTriple]
  | [c] =>
    have other : c ≠ quote := fun same => stop (congrArg some same)
    simp [closeTriple, other]
  | c :: d :: rest =>
    have other : c ≠ quote := fun same => stop (congrArg some same)
    simp [closeTriple, other]

/-- The text begins with something else than the quote. -/
def StartsOther (quote : Char) (text : List Char) : Prop := ∃ c more, text = c :: more ∧ c ≠ quote

theorem StartsOther.append {text : List Char} (other : StartsOther quote text)
    (more : List Char) : StartsOther quote (text ++ more) := by
  obtain ⟨c, rest, rfl, different⟩ := other
  exact ⟨c, rest ++ more, rfl, different⟩

/-- A reader that takes what may stand between triple quotes as it is spelled. -/
structure ReadsLines (quote : Char) (spells : Char → List Char → Prop) (joint : List Char → Prop)
    (read? : List Char → Option (List Char × List Char)) : Prop where
  char {c : Char} {written : List Char} : spells c written → StartsOther quote written ∧
    ∀ rest, read? (written ++ rest) = (read? rest).map (pushChar c)
  newline {ending : List Char} : IsNewline ending → StartsOther quote ending ∧
    ∀ rest, read? (ending ++ rest) = (read? rest).map (pushChar '\n')
  joint {written : List Char} : joint written → StartsOther quote written ∧
    ∀ rest, StartsFirm rest → read? (written ++ rest) = read? rest
  single {rest : List Char} : rest.take 2 ≠ [quote, quote] →
    read? (quote :: rest) = (read? rest).map (pushChar quote)
  close (rest : List Char) : read? (quote :: quote :: quote :: rest) = some (closeTriple quote rest)
  firm (rest : List Char) : StartsFirm (quote :: rest)

namespace ReadsLines

variable (reads : ReadsLines quote spells joint read?) {quotes : Nat}

include reads

/-- How the text goes on: not at all, with something else than a quote, or with a quote. -/
theorem cases_of_spellsLines (spelled : SpellsLines quote spells joint quotes text written) :
    text = [] ∧ written = [] ∨ StartsOther quote written ∨
      ∃ text' more, text = quote :: text' ∧ written = quote :: more ∧ quotes < 2 ∧
        SpellsLines quote spells joint (quotes + 1) text' more := by
  cases spelled with
  | nothing => exact Or.inl ⟨rfl, rfl⟩
  | char first _ => exact Or.inr (Or.inl ((reads.char first).1.append _))
  | newline ending _ => exact Or.inr (Or.inl ((reads.newline ending).1.append _))
  | joint joined _ _ => exact Or.inr (Or.inl ((reads.joint joined).1.append _))
  | quote few more => exact Or.inr (Or.inr ⟨_, _, rfl, rfl, few, more⟩)

theorem read?_of_spellsLines (spelled : SpellsLines quote spells joint quotes text written)
    {rest : List Char} (stop : rest.head? ≠ some quote) :
    read? (written ++ quote :: quote :: quote :: rest) = some (text, rest) := by
  obtain ⟨none, one, two⟩ := closeTriple_of_stop stop
  induction spelled with
  | nothing => exact (reads.close rest).trans (congrArg some none)
  | char first _ ih => rw [List.append_assoc, (reads.char first).2, ih]; rfl
  | newline ending _ ih => rw [List.append_assoc, (reads.newline ending).2, ih]; rfl
  | @joint _ _ _ more joined firm _ ih =>
    rw [List.append_assoc, (reads.joint joined).2 _ ?_, ih]
    cases more with
    | nil => exact reads.firm _
    | cons c more => exact firm
  | @quote _ _ more few spelled ih =>
    -- a quote is one of the text unless all that follows are quotes
    rcases reads.cases_of_spellsLines spelled with
      ⟨rfl, rfl⟩ | other | ⟨text', more', rfl, rfl, -, again⟩
    · exact (reads.close _).trans (congrArg some one)
    · obtain ⟨c, more', rfl, different⟩ := other
      rw [List.cons_append, reads.single (by simp [different]), ih]
      rfl
    · rcases reads.cases_of_spellsLines again with ⟨rfl, rfl⟩ | other | ⟨_, _, -, -, many, -⟩
      · exact (reads.close _).trans (congrArg some two)
      · obtain ⟨c, more', rfl, different⟩ := other
        rw [List.cons_append, reads.single (by simp [different]), ih]
        rfl
      · omega

end ReadsLines

end

theorem takeNewline?_append {ending : List Char} (newline : IsNewline ending) (rest : List Char) :
    takeNewline? (ending ++ rest) = some rest := by
  rcases newline with rfl | rfl <;> rfl

theorem startsOther_newline {quote : Char} (other : quote ≠ '\n' ∧ quote ≠ '\r')
    {ending : List Char} (newline : IsNewline ending) : StartsOther quote ending := by
  rcases newline with rfl | rfl
  · exact ⟨_, _, rfl, Ne.symm other.1⟩
  · exact ⟨_, _, rfl, Ne.symm other.2⟩

/-- Behind a joint, nothing that is firm is passed over. -/
theorem readBasic?_firm {rest : List Char} (firm : StartsFirm rest) :
    readBasic? true true rest = readBasic? true false rest := by
  cases rest with
  | nil => rfl
  | cons c rest =>
    obtain ⟨space, feed, carriage⟩ := firm c rfl
    unfold readBasic?
    split <;> simp_all

theorem readBasic?_filler {filler : List Char} (filled : IsFiller filler) {rest : List Char}
    (firm : StartsFirm rest) :
    readBasic? true true (filler ++ rest) = readBasic? true false rest := by
  induction filled with
  | nothing => exact readBasic?_firm firm
  | @space c filler space _ ih =>
    rw [← ih, List.cons_append]
    rcases eq_of_isSpace space with rfl | rfl
    · rw [readBasic?] <;> simp [isSpace]
    · rw [readBasic?] <;> simp [isSpace]
  | @newline ending filler newline _ ih =>
    rw [← ih, List.append_assoc]
    rcases newline with rfl | rfl
    · rw [List.singleton_append, readBasic?] <;> simp [isSpace]
    · rw [List.cons_append, List.singleton_append, readBasic?]
      rfl

theorem isFiller_spaces {spaces filler : List Char} (all : ∀ c ∈ spaces, isSpace c = true)
    (filled : IsFiller filler) : IsFiller (spaces ++ filler) := by
  induction spaces with
  | nil => exact filled
  | cons c spaces ih =>
    exact .space (all c List.mem_cons_self) (ih fun d mem => all d (List.mem_cons_of_mem c mem))

theorem isLineEnd_spaces {spaces ending : List Char} (all : ∀ c ∈ spaces, isSpace c = true)
    (newline : IsNewline ending) (rest : List Char) :
    isLineEnd (spaces ++ (ending ++ rest)) = true := by
  have stop : (ending ++ rest).dropWhile isSpace = ending ++ rest := by
    rcases newline with rfl | rfl <;> rfl
  rw [isLineEnd, List.dropWhile_append_of_pos all, stop, takeNewline?_append newline]
  rfl

theorem readBasic?_joint {written : List Char} (joined : IsJoint written) {rest : List Char}
    (firm : StartsFirm rest) :
    readBasic? true false (written ++ rest) = readBasic? true false rest := by
  obtain @⟨spaces, ending, filler, all, newline, filled⟩ := joined
  have passed := readBasic?_filler (isFiller_spaces all (.newline newline filled)) firm
  have line := isLineEnd_spaces all newline (filler ++ rest)
  have blank : ∃ mark more, spaces ++ (ending ++ filler) ++ rest = mark :: more ∧
      mark ≠ 'u' ∧ mark ≠ 'U' ∧ unescape? mark = none := by
    cases spaces with
    | nil => rcases newline with rfl | rfl <;> exact ⟨_, _, rfl, by decide⟩
    | cons c spaces =>
      rcases eq_of_isSpace (all c List.mem_cons_self) with rfl | rfl <;>
        exact ⟨_, _, rfl, by decide⟩
  obtain ⟨mark, more, split, noCode, noLongCode, noMark⟩ := blank
  rw [← passed, List.cons_append, split]
  rw [← List.append_assoc ending, ← List.append_assoc spaces, split] at line
  rw [readBasic?]
  · simp [noMark, line]
  · exact fun _ _ _ _ _ e => absurd e noCode
  · exact fun _ _ _ _ _ _ _ _ _ e => absurd e noLongCode

theorem readsLines_basic : ReadsLines '"' SpellsBasic IsJoint (readBasic? true false) where
  char {c written} spelled := by
    refine ⟨?_, readBasic?_char spelled true⟩
    cases spelled with
    | plain _ quote _ => exact ⟨_, _, rfl, quote⟩
    | mark _ => exact ⟨_, _, rfl, by decide⟩
    | code _ => exact ⟨_, _, rfl, by decide⟩
    | longCode _ => exact ⟨_, _, rfl, by decide⟩
  newline {ending} newline := by
    refine ⟨startsOther_newline (by decide) newline, fun rest => ?_⟩
    rcases newline with rfl | rfl
    · rw [List.singleton_append, readBasic?] <;> simp [isPrintable]
    · rfl
  joint {written} joined := by
    refine ⟨?_, fun rest => readBasic?_joint joined⟩
    obtain ⟨all, newline, filled⟩ := joined
    exact ⟨_, _, rfl, by decide⟩
  single {rest} other := by
    rw [readBasic?]
    · rfl
    · rintro more rfl
      exact other rfl
  close rest := rfl
  firm rest := by rintro c ⟨⟩; decide

theorem readsLines_literal :
    ReadsLines '\'' SpellsLiteral (fun _ => False) (readLiteral? true) where
  char {c written} spelled := by
    refine ⟨?_, readLiteral?_char spelled true⟩
    obtain ⟨printable, quote⟩ := spelled
    exact ⟨_, _, rfl, quote⟩
  newline {ending} newline := by
    refine ⟨startsOther_newline (by decide) newline, fun rest => ?_⟩
    rcases newline with rfl | rfl
    · rw [List.singleton_append, readLiteral?] <;> simp [isPrintable]
    · rfl
  joint none := none.elim
  single {rest} other := by
    rw [readLiteral?]
    · rfl
    · rintro more rfl
      exact other rfl
  close rest := rfl
  firm rest := by rintro c ⟨⟩; decide

/-! ## All notations -/

theorem takeNewline?_of_ne {c : Char} (other : c ≠ '\n' ∧ c ≠ '\r') (rest : List Char) :
    takeNewline? (c :: rest) = none := by
  unfold takeNewline?
  split <;> simp_all

theorem dropNewline_opening {opening written : List Char} (opened : IsOpening opening written)
    {quote : Char} (other : quote ≠ '\n' ∧ quote ≠ '\r') (rest : List Char) :
    dropNewline (opening ++ (written ++ quote :: rest)) = written ++ quote :: rest := by
  unfold dropNewline
  rcases opened with newline | ⟨rfl, stop⟩
  · rw [takeNewline?_append newline, Option.getD_some]
  · cases written with
    | nil => rw [List.nil_append, List.nil_append, takeNewline?_of_ne other, Option.getD_none]
    | cons c written =>
      rw [List.nil_append, List.cons_append, takeNewline?_of_ne (stop c rfl), Option.getD_none]

theorem readBasic?_close (rest : List Char) :
    readBasic? false false ('"' :: rest) = some ([], rest) := by
  by_cases more : ∃ more, rest = '"' :: '"' :: more
  · obtain ⟨more, rfl⟩ := more
    rfl
  · rw [readBasic?]
    · rfl
    · exact fun rest same => more ⟨rest, same⟩

theorem readLiteral?_close (rest : List Char) :
    readLiteral? false ('\'' :: rest) = some ([], rest) := by
  by_cases more : ∃ more, rest = '\'' :: '\'' :: more
  · obtain ⟨more, rfl⟩ := more
    rfl
  · rw [readLiteral?]
    · rfl
    · exact fun rest same => more ⟨rest, same⟩

/-- A string on one line does not begin with three quotes. -/
theorem take_two_of_spellsLine {quote : Char} {spells : Char → List Char → Prop}
    (other : ∀ {c : Char} {written : List Char}, spells c written → StartsOther quote written)
    {text written : List Char} (spelled : SpellsLine spells text written) {rest : List Char}
    (stop : rest.head? ≠ some quote) : (written ++ quote :: rest).take 2 ≠ [quote, quote] := by
  cases spelled with
  | nothing =>
    cases rest with
    | nil => simp
    | cons c rest => simpa using stop
  | char first more =>
    obtain ⟨c, written, rfl, different⟩ := other first
    simp [different]

/-- The text that a string is spelled by is read as the string. -/
theorem readText?_of_spells {text written : List Char} (spelled : SpellsText text written)
    {rest : List Char} (stop : ∀ c ∈ rest.head?, c ≠ '"' ∧ c ≠ '\'') :
    readText? (written ++ rest) = some (text, rest) := by
  cases spelled with
  | @basic written spelled =>
    have stop' : rest.head? ≠ some '"' := fun first => (stop _ first).1 rfl
    have single := take_two_of_spellsLine (fun spelled => (readsLines_basic.char spelled).1)
      spelled stop'
    rw [List.cons_append, List.append_assoc, List.singleton_append, readText?]
    · exact read?_of_spellsLine (fun spelled => readBasic?_char spelled false) readBasic?_close
        spelled rest
    · intro more triple
      rw [triple] at single
      exact single rfl
  | @literal written spelled =>
    have stop' : rest.head? ≠ some '\'' := fun first => (stop _ first).2 rfl
    have single := take_two_of_spellsLine (fun spelled => (readsLines_literal.char spelled).1)
      spelled stop'
    rw [List.cons_append, List.append_assoc, List.singleton_append, readText?]
    · exact read?_of_spellsLine (fun spelled => readLiteral?_char spelled false)
        readLiteral?_close spelled rest
    · intro more triple
      rw [triple] at single
      exact single rfl
  | @basicLines opening written opened spelled =>
    have stop' : rest.head? ≠ some '"' := fun first => (stop _ first).1 rfl
    simp only [List.cons_append, List.append_assoc, List.nil_append]
    rw [readText?, dropNewline_opening opened (by decide)]
    exact readsLines_basic.read?_of_spellsLines spelled stop'
  | @literalLines opening written opened spelled =>
    have stop' : rest.head? ≠ some '\'' := fun first => (stop _ first).2 rfl
    simp only [List.cons_append, List.append_assoc, List.nil_append]
    rw [readText?, dropNewline_opening opened (by decide)]
    exact readsLines_literal.read?_of_spellsLines spelled stop'

/-- A quote right before the closing ones belongs to the string. -/
example : readText? "'''\na\n'b'''' #".toList = some ("a\n'b'".toList, " #".toList) := by
  decide +kernel

/-! ## Writing -/

theorem charOfCode?_toNat {c : Char} (small : c.toNat < 256) :
    charOfCode? ['0', '0', Nat.digitChar (c.toNat / 16), Nat.digitChar (c.toNat % 16)] =
      some c := by
  have valid : c.toNat.isValidChar := c.valid
  rw [charOfCode?, valueInBase?_digitChars small]
  show (if h : c.toNat.isValidChar then some (Char.ofNatAux c.toNat h) else none) = some c
  rw [dif_pos valid]
  rfl

theorem spellsBasic_escape (c : Char) : SpellsBasic c (escape c) := by
  unfold escape
  split
  · next quote =>
    subst quote
    exact .mark rfl
  split
  · next backslash =>
    subst backslash
    exact .mark rfl
  split
  · next quote backslash printable => exact .plain printable quote backslash
  · next control =>
    refine .code (charOfCode?_toNat ?_)
    by_cases delete : c = '\x7f'
    · subst delete
      decide
    · simp only [isPrintable, Bool.or_eq_true, Bool.and_eq_true, decide_eq_true_eq] at control
      have : ¬ 0x20 ≤ c.toNat := fun high => control (Or.inr ⟨high, delete⟩)
      omega

theorem spellsLine_escape (text : List Char) :
    SpellsLine SpellsBasic text (text.flatMap escape) := by
  induction text with
  | nil => exact .nothing
  | cons c text ih => exact .char (spellsBasic_escape c) ih

theorem spellsText_quote (text : List Char) : SpellsText text (quoteText text) :=
  .basic (spellsLine_escape text)

end BenchLog.Toml
