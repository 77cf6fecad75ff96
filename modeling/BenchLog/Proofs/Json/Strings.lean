import BenchLog.Json.Printer
import BenchLog.Json.Reader

/-!
# JSON strings read back

Each character is escaped into a text that reads back as its code (`readCodes?_escape`), and the
codes of characters are no surrogates, so they spell the characters again (`textOfCodes?_codes`).
Hence every string reads back, whatever stands behind it (`readString?_quote`).
-/

namespace BenchLog.Json

/-! ## Codes -/

theorem readCodes?_mark (mark : Char) {c : Char} (h : unescape? mark = some c)
    (other : mark ≠ 'u') (rest : List Char) :
    readCodes? ('\\' :: mark :: rest) =
      (readCodes? rest).map fun (codes, rest) => (c.toNat :: codes, rest) := by
  rw [readCodes?]
  · rw [h]
    cases readCodes? rest <;> rfl
  · rintro a b c d tail rfl
    exact absurd rfl other

theorem readCodes?_plain {c : Char} (quote : c ≠ '"') (backslash : c ≠ '\\')
    (printable : ¬ c.toNat < 0x20) (rest : List Char) :
    readCodes? (c :: rest) =
      (readCodes? rest).map fun (codes, rest) => (c.toNat :: codes, rest) := by
  rw [readCodes?]
  · simp only [printable, backslash, decide_false, Bool.or_self, Bool.false_eq_true, if_false]
    cases readCodes? rest <;> rfl
  · exact quote
  · exact fun _ _ _ _ _ e => absurd e backslash
  · exact fun _ _ e => absurd e backslash

/-- Reading goes on behind an escaped character, and its code comes first. -/
theorem readCodes?_escape (c : Char) (rest : List Char) :
    readCodes? (escape c ++ rest) =
      (readCodes? rest).map fun (codes, rest) => (c.toNat :: codes, rest) := by
  unfold escape
  split
  · next e => subst e; exact readCodes?_mark '"' rfl (by decide) rest
  split
  · next e => subst e; exact readCodes?_mark '\\' rfl (by decide) rest
  split
  · next e => subst e; exact readCodes?_mark 'b' rfl (by decide) rest
  split
  · next e => subst e; exact readCodes?_mark 'f' rfl (by decide) rest
  split
  · next e => subst e; exact readCodes?_mark 'n' rfl (by decide) rest
  split
  · next e => subst e; exact readCodes?_mark 'r' rfl (by decide) rest
  split
  · next e => subst e; exact readCodes?_mark 't' rfl (by decide) rest
  split
  · next control =>
    have code : valueInBase? 16 ['0', '0', hexDigit (c.toNat / 16), hexDigit (c.toNat % 16)] =
      some c.toNat := valueInBase?_digitChars (show c.toNat < 256 by omega)
    simp only [List.cons_append, List.nil_append]
    rw [readCodes?, code]
    cases readCodes? rest <;> rfl
  · next quote backslash _ _ _ _ _ printable =>
    exact readCodes?_plain quote backslash printable rest

theorem readCodes?_flatMap_escape (text rest : List Char) :
    readCodes? (text.flatMap escape ++ '"' :: rest) = some (text.map Char.toNat, rest) := by
  induction text with
  | nil => rfl
  | cons c text ih => rw [List.flatMap_cons, List.append_assoc, readCodes?_escape, ih]; rfl

/-! ## Texts -/

theorem not_isHighSurrogate_toNat (c : Char) : isHighSurrogate c.toNat = false := by
  have valid : c.toNat < 0xD800 ∨ 0xDFFF < c.toNat ∧ c.toNat < 0x110000 := c.valid
  simp only [isHighSurrogate, Bool.and_eq_false_iff, decide_eq_false_iff_not]
  omega

theorem not_isLowSurrogate_toNat (c : Char) : isLowSurrogate c.toNat = false := by
  have valid : c.toNat < 0xD800 ∨ 0xDFFF < c.toNat ∧ c.toNat < 0x110000 := c.valid
  simp only [isLowSurrogate, Bool.and_eq_false_iff, decide_eq_false_iff_not]
  omega

theorem textOfCodes?_codes (text : List Char) :
    textOfCodes? (text.map Char.toNat) = some text := by
  induction text with
  | nil => rfl
  | cons c text ih =>
    have high := not_isHighSurrogate_toNat c
    have low := not_isLowSurrogate_toNat c
    cases text with
    | nil =>
      simp only [List.map_cons, List.map_nil, textOfCodes?, high, low, Bool.or_self,
        Bool.false_eq_true, if_false, Char.ofNat_toNat]
    | cons d text =>
      rw [List.map_cons] at ih
      simp only [List.map_cons, textOfCodes?, high, low, Bool.or_self, Bool.false_and,
        Bool.false_eq_true, if_false, Char.ofNat_toNat, ih]
      rfl

/-- A string in quotes reads back. -/
theorem readString?_quote (text : String) (rest : List Char) :
    readString? (text.toList.flatMap escape ++ '"' :: rest) = some (some text, rest) := by
  rw [readString?, readCodes?_flatMap_escape]
  simp only [Option.map_some, textOfCodes?_codes, String.ofList_toList]

end BenchLog.Json
