import BenchLog.Proofs.Report.RoundTrip

/-!
# The two layouts of a JSON report

Spaces and line feeds stand in a JSON text inside strings and outside. Those outside can be deleted
by going through the characters and keeping track of where strings begin and end
(`Json.withoutBlanks`). What this leaves of a text depends only on its parts, as long as each part
closes the strings it opens (`Json.Condenses`), and no character of a string ends it or breaks the
line, since each is escaped. So the indented layout of a document condenses to the compact one, which
is a single line (`Json.condenses_renderAt`).
-/

namespace BenchLog

namespace Json

/-! ## Deleting blanks -/

/-- Where a character of a JSON text stands. -/
inductive Place where
  | outside
  /-- In a string. -/
  | inside
  /-- In a string, behind a backslash. -/
  | escaped
  deriving DecidableEq

/-- Where the character behind `c` stands. -/
def Place.next (place : Place) (c : Char) : Place :=
  match place with
  | outside => if c = '"' then inside else outside
  | inside => if c = '"' then outside else if c = '\\' then escaped else inside
  | escaped => inside

/-- Deletes the spaces and line feeds that stand outside strings, in a text that begins at the given
place. -/
def withoutBlanks : Place → List Char → List Char
  | _, [] => []
  | place, c :: text =>
    if place = .outside ∧ (c = ' ' ∨ c = '\n') then withoutBlanks place text
    else c :: withoutBlanks (place.next c) text

/-- From a text that begins and ends outside strings, deleting blanks leaves this line, whatever
follows. -/
structure Condenses (text line : List Char) : Prop where
  leaves : ∀ rest, withoutBlanks .outside (text ++ rest) = line ++ withoutBlanks .outside rest
  oneLine : '\n' ∉ line

namespace Condenses

theorem nil : Condenses [] [] := ⟨fun _ => rfl, List.not_mem_nil⟩

theorem append {text text' line line' : List Char} (h : Condenses text line)
    (h' : Condenses text' line') : Condenses (text ++ text') (line ++ line') where
  leaves rest := by rw [List.append_assoc, h.leaves, h'.leaves, List.append_assoc]
  oneLine mem := (List.mem_append.1 mem).elim h.oneLine h'.oneLine

theorem blank {c : Char} (blank : c = ' ' ∨ c = '\n') : Condenses [c] [] where
  leaves rest := by
    show withoutBlanks .outside (c :: rest) = _
    rw [withoutBlanks, if_pos ⟨rfl, blank⟩]
    rfl
  oneLine := List.not_mem_nil

theorem mark {c : Char} (other : c ≠ '"' ∧ c ≠ ' ' ∧ c ≠ '\n') : Condenses [c] [c] where
  leaves rest := by
    obtain ⟨quote, space, feed⟩ := other
    show withoutBlanks .outside (c :: rest) = _
    rw [withoutBlanks, if_neg fun h => h.2.elim space feed, Place.next, if_neg quote]
    rfl
  oneLine mem := other.2.2 (List.mem_singleton.1 mem).symm

theorem marks {text : List Char} (quote : '"' ∉ text) (space : ' ' ∉ text) (feed : '\n' ∉ text) :
    Condenses text text := by
  induction text with
  | nil => exact nil
  | cons c text ih =>
    obtain ⟨quote, quote'⟩ := not_or.1 fun h => quote (List.mem_cons.2 h)
    obtain ⟨space, space'⟩ := not_or.1 fun h => space (List.mem_cons.2 h)
    obtain ⟨feed, feed'⟩ := not_or.1 fun h => feed (List.mem_cons.2 h)
    exact (mark ⟨Ne.symm quote, Ne.symm space, Ne.symm feed⟩).append (ih quote' space' feed')

theorem newLine (layout : Layout) (depth : Nat) : Condenses (layout.newLine depth) [] := by
  have spaces (n : Nat) : Condenses (List.replicate n ' ') [] := by
    induction n with
    | zero => exact nil
    | succ n ih => exact (blank (Or.inl rfl)).append ih
  cases layout with
  | compact => exact nil
  | indented => exact (blank (Or.inr rfl)).append (spaces (2 * depth))

theorem colon (layout : Layout) : Condenses layout.colon [':'] := by
  have colon : Condenses [':'] [':'] := mark (by decide)
  cases layout with
  | compact => exact colon
  | indented => exact colon.append (blank (Or.inl rfl))

end Condenses

/-! ## Strings -/

/-- An escaped character is itself, or a backslash, a mark and perhaps digits. Nothing of it breaks the
line, and nothing but the mark ends a string or escapes. -/
theorem escape_cases (c : Char) :
    escape c = [c] ∧ c ≠ '"' ∧ c ≠ '\\' ∧ c ≠ '\n' ∨
      ∃ mark digits, escape c = '\\' :: mark :: digits ∧ mark ≠ '\n' ∧
        ∀ d ∈ digits, d ≠ '"' ∧ d ≠ '\\' ∧ d ≠ '\n' := by
  unfold escape
  split
  · exact Or.inr ⟨'"', [], rfl, by decide, List.forall_mem_nil _⟩
  split
  · exact Or.inr ⟨'\\', [], rfl, by decide, List.forall_mem_nil _⟩
  split
  · exact Or.inr ⟨'b', [], rfl, by decide, List.forall_mem_nil _⟩
  split
  · exact Or.inr ⟨'f', [], rfl, by decide, List.forall_mem_nil _⟩
  split
  · exact Or.inr ⟨'n', [], rfl, by decide, List.forall_mem_nil _⟩
  split
  · exact Or.inr ⟨'r', [], rfl, by decide, List.forall_mem_nil _⟩
  split
  · exact Or.inr ⟨'t', [], rfl, by decide, List.forall_mem_nil _⟩
  split
  · next control =>
    have digit : ∀ n < 16, hexDigit n ≠ '"' ∧ hexDigit n ≠ '\\' ∧ hexDigit n ≠ '\n' := by decide
    refine Or.inr ⟨'u', _, rfl, by decide, ?_⟩
    simp only [List.forall_mem_cons]
    exact ⟨by decide, by decide, digit _ (by omega), digit _ (by omega), List.forall_mem_nil _⟩
  · next quote backslash _ _ newLine _ _ _ => exact Or.inl ⟨rfl, quote, backslash, newLine⟩

theorem withoutBlanks_plain {text : List Char} (plain : ∀ c ∈ text, c ≠ '"' ∧ c ≠ '\\')
    (rest : List Char) :
    withoutBlanks .inside (text ++ rest) = text ++ withoutBlanks .inside rest := by
  induction text with
  | nil => rfl
  | cons c text ih =>
    obtain ⟨quote, backslash⟩ := plain c List.mem_cons_self
    rw [List.cons_append, withoutBlanks, if_neg (fun h => nomatch h.1), Place.next, if_neg quote,
      if_neg backslash, ih fun d mem => plain d (List.mem_cons_of_mem c mem)]
    rfl

/-- Behind an escaped character the string goes on. -/
theorem withoutBlanks_escape (c : Char) (rest : List Char) :
    withoutBlanks .inside (escape c ++ rest) = escape c ++ withoutBlanks .inside rest := by
  rcases escape_cases c with ⟨same, quote, backslash, -⟩ | ⟨mark, digits, same, -, plain⟩
  · rw [same]
    exact withoutBlanks_plain (fun d mem => List.mem_singleton.1 mem ▸ ⟨quote, backslash⟩) rest
  · have digits := withoutBlanks_plain (fun d mem => ⟨(plain d mem).1, (plain d mem).2.1⟩) rest
    rw [same]
    exact congrArg ('\\' :: mark :: ·) digits

theorem newLine_notMem_escape (c : Char) : '\n' ∉ escape c := by
  intro mem
  rcases escape_cases c with ⟨same, -, -, newLine⟩ | ⟨mark, digits, same, newLine, plain⟩
  · rw [same] at mem
    exact newLine (List.mem_singleton.1 mem).symm
  · rw [same] at mem
    rcases List.mem_cons.1 mem with backslash | mem
    · exact absurd backslash (by decide)
    · rcases List.mem_cons.1 mem with rfl | mem
      · exact newLine rfl
      · exact (plain _ mem).2.2 rfl

/-- A string in quotes is left as it is, on one line. -/
theorem condenses_quote (text : List Char) : Condenses (quote text) (quote text) where
  leaves rest := by
    have inside : withoutBlanks .inside (text.flatMap escape ++ '"' :: rest) =
        text.flatMap escape ++ '"' :: withoutBlanks .outside rest := by
      induction text with
      | nil => rfl
      | cons c text ih =>
        rw [List.flatMap_cons, List.append_assoc, withoutBlanks_escape, ih, List.append_assoc]
    simp only [quote, List.cons_append, List.append_assoc, List.nil_append]
    exact congrArg ('"' :: ·) inside
  oneLine mem := by
    rcases List.mem_cons.1 mem with mark | mem
    · exact absurd mark (by decide)
    · rcases List.mem_append.1 mem with inText | last
      · obtain ⟨c, -, escaped⟩ := List.mem_flatMap.1 inText
        exact newLine_notMem_escape c escaped
      · exact absurd last (by decide)

theorem condenses_renderString (text : Option String) :
    Condenses (renderString text) (renderString text) := by
  cases text with
  | some text => exact condenses_quote text.toList
  | none =>
    exact ⟨fun rest => rfl, by decide⟩

/-! ## Documents -/

theorem condenses_number {n : Number} (wellFormed : n.WellFormed) :
    Condenses n.render n.render := by
  have digits {text : List Char} (all : ∀ c ∈ text, c.isDigit = true) : Condenses text text :=
    .marks (fun mem => nomatch all _ mem) (fun mem => nomatch all _ mem)
      fun mem => nomatch all _ mem
  have sign : Condenses (if n.negative then ['-'] else []) (if n.negative then ['-'] else []) := by
    split
    · exact .mark (by decide)
    · exact .nil
  have fraction : Condenses (if n.fraction.isEmpty then [] else '.' :: n.fraction)
      (if n.fraction.isEmpty then [] else '.' :: n.fraction) := by
    split
    · exact .nil
    · exact (Condenses.mark (by decide)).append (digits wellFormed.fraction_digits)
  have exponent : Condenses (renderExponent n.exponent) (renderExponent n.exponent) := by
    have power (sign : Char) (other : sign ≠ '"' ∧ sign ≠ ' ' ∧ sign ≠ '\n') (n : Nat) :
        Condenses ('e' :: sign :: Nat.toDigits 10 n) ('e' :: sign :: Nat.toDigits 10 n) :=
      (Condenses.mark (by decide)).append
        ((Condenses.mark other).append (digits fun c mem => isDigit_of_mem_toDigits mem))
    cases n.exponent with
    | none => exact .nil
    | some exponent =>
      cases exponent with
      | ofNat n => exact power '+' (by decide) n
      | negSucc n => exact power '-' (by decide) (n + 1)
  exact ((sign.append (digits wellFormed.whole_digits)).append fraction).append exponent

/-- The document condenses to its compact text, however deep it stands. -/
def IsCondensed (layout : Layout) (document : Json) : Prop :=
  ∀ depth depth', Condenses (renderAt layout depth document) (renderAt .compact depth' document)

variable {layout : Layout}

theorem condenses_moreItems {items : List Json} (each : ∀ item ∈ items, IsCondensed layout item)
    (depth depth' : Nat) :
    Condenses (moreItems layout depth items) (moreItems .compact depth' items) := by
  induction items with
  | nil =>
    rw [moreItems, moreItems]
    exact .nil
  | cons item items ih =>
    have first := each item List.mem_cons_self depth depth'
    have more := ih fun item mem => each item (List.mem_cons_of_mem _ mem)
    rw [moreItems, moreItems]
    exact (Condenses.mark (by decide)).append (((Condenses.newLine layout depth).append first).append
      more)

theorem condenses_moreMembers {members : List (Option String × Json)}
    (each : ∀ member ∈ members, IsCondensed layout member.2) (depth depth' : Nat) :
    Condenses (moreMembers layout depth members) (moreMembers .compact depth' members) := by
  induction members with
  | nil =>
    rw [moreMembers, moreMembers]
    exact .nil
  | cons member members ih =>
    have first := each member List.mem_cons_self depth depth'
    have more := ih fun member mem => each member (List.mem_cons_of_mem _ mem)
    obtain ⟨name, value⟩ := member
    rw [moreMembers, moreMembers]
    exact (Condenses.mark (by decide)).append (((((Condenses.newLine layout depth).append
      (condenses_renderString name)).append (.colon layout)).append first).append more)

/-- A document in either layout condenses to its compact text. -/
theorem isCondensed_of_written {document : Json} (written : Written document) :
    IsCondensed layout document := by
  induction written with
  | null =>
    intro depth depth'
    rw [renderAt, renderAt]
    exact .marks (by decide) (by decide) (by decide)
  | boolean value =>
    intro depth depth'
    cases value <;>
    · rw [renderAt, renderAt]
      exact .marks (by decide) (by decide) (by decide)
  | number wellFormed =>
    intro depth depth'
    rw [renderAt, renderAt]
    exact condenses_number wellFormed
  | string text =>
    intro depth depth'
    rw [renderAt, renderAt]
    exact condenses_quote text.toList
  | @array items written each =>
    intro depth depth'
    cases items with
    | nil =>
      rw [renderAt, renderAt]
      exact .marks (by decide) (by decide) (by decide)
    | cons item items =>
      have first := each item List.mem_cons_self (depth + 1) (depth' + 1)
      have more := condenses_moreItems (fun item mem => each item (List.mem_cons_of_mem _ mem))
        (depth + 1) (depth' + 1)
      rw [renderAt, renderAt]
      exact (Condenses.mark (by decide)).append (((((Condenses.newLine layout (depth + 1)).append
        first).append more).append (.newLine layout depth)).append (.mark (by decide)))
  | @object members named written each =>
    intro depth depth'
    cases members with
    | nil =>
      rw [renderAt, renderAt]
      exact .marks (by decide) (by decide) (by decide)
    | cons member members =>
      have first := each member List.mem_cons_self (depth + 1) (depth' + 1)
      have more := condenses_moreMembers (fun member mem => each member (List.mem_cons_of_mem _ mem))
        (depth + 1) (depth' + 1)
      obtain ⟨name, value⟩ := member
      rw [renderAt, renderAt]
      exact (Condenses.mark (by decide)).append (((((((Condenses.newLine layout (depth + 1)).append
        (condenses_renderString name)).append (.colon layout)).append first).append more).append
          (.newLine layout depth)).append (.mark (by decide)))

end Json

/-- The indented JSON report of a summary without the spaces and line feeds outside strings, and with
a line feed behind it, is the compact report, and this has no other line feed. -/
theorem Summary.report_json_layouts (summary : Summary) :
    Json.withoutBlanks .outside (summary.report .jsonPretty) ++ ['\n'] = summary.report .json ∧
      (summary.report .json).count '\n' = 1 ∧ (summary.report .json).getLast? = some '\n' := by
  obtain ⟨leaves, oneLine⟩ :=
    @Json.isCondensed_of_written .indented _ summary.written_document 0 0
  refine ⟨?_, ?_, List.getLast?_concat⟩
  · show Json.withoutBlanks .outside (Json.renderAt .indented 0 summary.document ++ ['\n'])
      ++ ['\n'] = _
    rw [leaves, List.append_assoc]
    rfl
  · show List.count '\n' (Json.renderAt .compact 0 summary.document ++ ['\n']) = 1
    rw [List.count_append, List.count_eq_zero.2 oneLine]
    rfl

end BenchLog
