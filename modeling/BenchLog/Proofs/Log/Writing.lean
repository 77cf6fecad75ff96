import BenchLog.Proofs.Decimal.RoundTrip
import BenchLog.Proofs.Log.BlockOrder
import BenchLog.Proofs.Log.Encoding
import BenchLog.Proofs.Text.Blank

/-!
# Logs that are written and read

A log can be written for a table with a number for each metric in each block. However the lines of
the numbers are filled up to what the recipe drops, whatever the separator lines say and whatever
follows the last of them, reading the log gives the numbers of the table (`read_written`).
-/

namespace BenchLog

/-! ## Texts -/

namespace Log

/-- A text with one line feed, at its end, is a line. -/
theorem isLine_encode {text : List Char} (plain : '\n' ∉ text) :
    IsLine (encode (text ++ ['\n'])) :=
  ⟨encode text, lineFeed_notMem_encode plain, encode_append text ['\n']⟩

end Log

/-- Nothing is trimmed off a text without blank characters, but a line feed behind it. -/
theorem trim_of_plain {text : List Char} (plain : ∀ c ∈ text, isBlank c = false) {feed : List Char}
    (feeds : feed = [] ∨ feed = ['\n']) : trim (text ++ feed) = text := by
  apply IsTrimmed.trim_eq
  refine ⟨⟨[], feed, rfl, by simp, List.all_eq_true.1 ?_⟩,
    fun c first => plain c (List.mem_of_mem_head? first),
    fun c last => plain c (List.mem_of_mem_getLast? last)⟩
  rcases feeds with rfl | rfl <;> decide

/-! ## Numbers as text -/

/-- A whole number in decimal digits. -/
def decimalText (n : Int) : List Char :=
  Binary64.signText (decide (n < 0)) ++ Nat.toDigits 10 n.natAbs

/-- Numbers are written with these characters. -/
def IsNumeral (c : Char) : Prop := c.isDigit = true ∨ c = '-' ∨ c = '.'

theorem IsNumeral.plain {c : Char} (numeral : IsNumeral c) :
    isBlank c = false ∧ c ≠ ',' ∧ c ≠ '\n' := by
  rcases numeral with digit | rfl | rfl
  · have range := toNat_of_isDigit digit
    refine ⟨?_, ?_, ?_⟩
    · simp only [isBlank, blankRanges, List.any_cons, List.any_nil, Bool.or_false,
        Bool.or_eq_false_iff, Bool.and_eq_false_iff, decide_eq_false_iff_not]
      omega
    · rintro rfl
      cases digit
    · rintro rfl
      cases digit
  · decide
  · decide

theorem isNumeral_of_mem_signText {negative : Bool} {c : Char}
    (mem : c ∈ Binary64.signText negative) : IsNumeral c := by
  cases negative with
  | true => exact Or.inr (Or.inl (List.mem_singleton.1 mem))
  | false => cases mem

theorem isNumeral_decimalText {n : Int} {c : Char} (mem : c ∈ decimalText n) : IsNumeral c := by
  rcases List.mem_append.1 mem with sign | digits
  · exact isNumeral_of_mem_signText sign
  · exact Or.inl (isDigit_of_mem_toDigits digits)

theorem isNumeral_readable {x : Binary64} (finite : x.magnitude < Binary64.infinityMagnitude)
    {c : Char} (mem : c ∈ x.readable) : IsNumeral c := by
  have digits := (Decimal.shortest .up x.magnitude).pointParts_digits
  rw [Binary64.readable_of_finite finite] at mem
  simp only [List.mem_append, List.mem_cons] at mem
  rcases mem with mem | mem | mem | mem
  · exact isNumeral_of_mem_signText mem
  · exact Or.inl (digits.1 c mem)
  · exact Or.inr (Or.inr mem)
  · exact Or.inl (digits.2 c mem)

theorem spellsInteger_decimalText (n : Int) : SpellsInteger n (decimalText n) := by
  have spelled := SpellsInteger.digits (Binary64.spellsSign_signText (decide (n < 0)))
    Nat.toDigits_ne_nil fun c => isDigit_of_mem_toDigits (n := n.natAbs)
  rwa [digitsValue_toDigits, Binary64.signed_decide] at spelled

theorem readInteger?_decimalText (n : Int64) :
    readInteger? (decimalText n.toInt) = some n.toInt := by
  have low := n.le_toInt
  have high := n.toInt_lt
  exact readInteger?_eq_some_iff.2 ⟨spellsInteger_decimalText n.toInt, fitsSigned64_iff.2 (by omega)⟩

/-- Every whole number of 64 bits has a nearest double. -/
theorem isNearest_ofInt (n : Int64) :
    Binary64.IsNearest (n.toInt.natAbs * Binary64.unitsPerOne) 1
      (Binary64.ofInt n.toInt).magnitude := by
  have low := n.le_toInt
  have high := n.toInt_lt
  have small : 1 ≤ 2 * Binary64.binade := by decide
  obtain ⟨finite, units⟩ := Binary64.units_ofNat small (show 63 < 971 by decide)
  have bound : n.toInt.natAbs ≤ 1 * Nat.pow 2 63 := by
    rw [Nat.one_mul, show Nat.pow 2 63 = 9223372036854775808 from rfl]
    omega
  have below : (Binary64.ofInt n.toInt).magnitude ≤
      (Binary64.ofNat (1 * Nat.pow 2 63)).magnitude := by
    refine Binary64.nearestMagnitude_le Nat.one_pos ?_
    rw [Nat.mul_one, ← Binary64.units, units]
    exact Nat.mul_le_mul_right _ bound
  exact (Binary64.nearestMagnitude_eq_iff Nat.one_pos (Nat.lt_of_le_of_lt below finite)).1 rfl

/-! ## Lines -/

/-- A number for the line of a metric. -/
inductive Entry where
  | integer (n : Int64)
  | float (x : Binary64)

namespace Entry

def kind : Entry → NumericKind
  | integer _ => .integer
  | float _ => .float

/-- A number that can be written. -/
def IsFinite : Entry → Prop
  | integer _ => True
  | float x => x.isFinite = true

/-- The number alone. -/
def text : Entry → List Char
  | integer n => decimalText n.toInt
  | float x => x.readable

/-- The text of the number with such separators as the rule is there for: dots at any places in a
whole number, or a comma for the point of a fraction. -/
def IsText (rule : SeparatorRule) (entry : Entry) (text : List Char) : Prop :=
  match rule, entry with
  | .removeDots, integer n => text.filter (· ≠ '.') = decimalText n.toInt
  | .commaToDot, float x => text = x.readable.map fun c => if c = '.' then ',' else c
  | _, _ => text = entry.text

/-- A line of the number: its text, and behind it what the recipe drops, at least a line feed. -/
structure IsLine (spec : MetricSpec) (entry : Entry) (line : List Char) : Prop where
  kind : entry.kind = spec.kind
  finite : entry.IsFinite
  written : ∃ text suffix, line = text ++ (suffix ++ ['\n']) ∧ entry.IsText spec.separator text ∧
    '\n' ∉ suffix ∧ (suffix ++ ['\n']).length = max spec.strip 1

/-- The sample of the number: a double is its own, for a whole number it is the nearest double. -/
def IsSample : Entry → Binary64 → Prop
  | integer n, sample => sample.negative = decide (n.toInt < 0) ∧
      Binary64.IsNearest (n.toInt.natAbs * Binary64.unitsPerOne) 1 sample.magnitude
  | float x, sample => sample = x

variable {spec : MetricSpec} {entry : Entry}

theorem isNumeral_text (finite : entry.IsFinite) {c : Char} (mem : c ∈ entry.text) :
    IsNumeral c := by
  cases entry with
  | integer n => exact isNumeral_decimalText mem
  | float x => exact isNumeral_readable (Binary64.isFinite_iff.1 finite) mem

/-- The rule gives back the number alone. -/
theorem apply_of_isText (finite : entry.IsFinite) {rule : SeparatorRule}
    (whole : entry.kind = .float → rule ≠ .removeDots) {text : List Char}
    (written : entry.IsText rule text) : rule.apply text = entry.text := by
  have noComma : entry.text.map (fun c => if c = ',' then '.' else c) = entry.text := by
    refine (List.map_congr_left fun c mem => ?_).trans (List.map_id _)
    exact if_neg (isNumeral_text finite mem).plain.2.1
  cases rule with
  | keep =>
    cases entry <;> exact written
  | removeDots =>
    cases entry with
    | integer n => exact written
    | float x => exact absurd rfl (whole rfl)
  | commaToDot =>
    cases entry with
    | integer n =>
      subst written
      exact noComma
    | float x =>
      subst written
      refine Eq.trans ?_ noComma
      show List.map _ (List.map _ x.readable) = List.map _ x.readable
      rw [List.map_map]
      apply List.map_congr_left
      intro c mem
      show (if (if c = '.' then ',' else c) = ',' then '.' else (if c = '.' then ',' else c)) = _
      by_cases point : c = '.'
      · subst point
        rfl
      · rw [if_neg point]

end Entry

namespace SeparatorRule

theorem apply_append (rule : SeparatorRule) (text more : List Char) :
    rule.apply (text ++ more) = rule.apply text ++ rule.apply more := by
  cases rule with
  | keep => rfl
  | removeDots => exact List.filter_append ..
  | commaToDot => exact List.map_append

theorem newLine_mem_apply (rule : SeparatorRule) {text : List Char} (mem : '\n' ∈ text) :
    '\n' ∈ rule.apply text := by
  cases rule with
  | keep => exact mem
  | removeDots => exact List.mem_filter.2 ⟨mem, rfl⟩
  | commaToDot => exact List.mem_map.2 ⟨_, mem, rfl⟩

end SeparatorRule

namespace Entry

variable {spec : MetricSpec} {entry : Entry} {line : List Char}
  (whole : spec.kind = .float → spec.separator ≠ .removeDots) (isLine : entry.IsLine spec line)

include whole isLine

theorem IsLine.clean : spec.clean line = entry.text := by
  obtain ⟨kind, finite, text, suffix, rfl, written, -, length⟩ := isLine
  have alone := apply_of_isText finite (kind ▸ whole) written
  have plain : ∀ c ∈ entry.text, isBlank c = false := fun c mem =>
    (isNumeral_text finite mem).plain.1
  unfold MetricSpec.clean
  rcases Nat.eq_zero_or_pos spec.strip with none | some
  · -- nothing is dropped, so the line feed is trimmed off
    rw [none, List.length_append, List.length_singleton] at length
    obtain rfl := List.length_eq_zero_iff.1 (show suffix.length = 0 by omega)
    have feed : spec.separator.apply ['\n'] = ['\n'] := by cases spec.separator <;> decide
    rw [none, stripTrailing_zero, List.nil_append, SeparatorRule.apply_append, alone, feed]
    exact trim_of_plain plain (Or.inr rfl)
  · have trimmed := trim_of_plain plain (Or.inl rfl)
    rw [List.append_nil] at trimmed
    rw [Nat.max_eq_left some] at length
    rw [← length, stripTrailing_append, alone, trimmed]

theorem IsLine.isLine_encode : Log.IsLine (Log.encode line) := by
  obtain ⟨kind, finite, text, suffix, rfl, written, noFeed, -⟩ := isLine
  rw [← List.append_assoc]
  refine Log.isLine_encode fun mem => ?_
  rcases List.mem_append.1 mem with mem | mem
  · have inText := spec.separator.newLine_mem_apply mem
    rw [apply_of_isText finite (kind ▸ whole) written] at inText
    exact (isNumeral_text finite inText).plain.2.2 rfl
  · exact noFeed mem

/-- The line of a number holds its sample. -/
theorem IsLine.sample :
    ∃ sample, spec.ofLine? (Log.encode line) = some sample ∧ entry.IsSample sample := by
  rw [MetricSpec.ofLine?, Log.decode?_encode]
  show ∃ sample, spec.extract? line = some sample ∧ _
  rw [MetricSpec.extract?, isLine.clean whole, ← isLine.kind]
  cases entry with
  | integer n =>
    refine ⟨_, ?_, rfl, isNearest_ofInt n⟩
    show (readInteger? (decimalText n.toInt)).map _ = _
    rw [readInteger?_decimalText]
    rfl
  | float x => exact ⟨x, Binary64.read?_readable_of_finite (Binary64.isFinite_iff.1 isLine.finite),
      rfl⟩

end Entry

/-! ## Logs -/

namespace Log

/-- The bytes of the lines of a block, of which the last is the separator line. -/
def blockOf {width : Nat} (lines : Fin width → List Char) (separator : List Char) :
    List (List UInt8) :=
  (List.ofFn lines ++ [separator]).map encode

theorem getElem?_blockOf {width : Nat} (lines : Fin width → List Char) (separator : List Char)
    (column : Fin width) :
    (blockOf lines separator)[column.val]? = some (encode (lines column)) := by
  rw [blockOf, List.getElem?_map, List.getElem?_append_left (by simp), List.getElem?_ofFn]
  simp

theorem getElem?_blockOf_width {width : Nat} (lines : Fin width → List Char)
    (separator : List Char) : (blockOf lines separator)[width]? = some (encode separator) := by
  rw [blockOf, List.getElem?_map, List.getElem?_append_right (by simp)]
  simp

/-- What follows complete lines does not change them. -/
theorem lines_flatten_append {lines : List (List UInt8)} (complete : ∀ line ∈ lines, IsLine line)
    (rest : Log) : Log.lines (lines.flatten ++ rest) = lines ++ rest.lines := by
  induction lines with
  | nil => rfl
  | cons line lines ih =>
    rw [List.flatten_cons, List.append_assoc, lines_append (complete line List.mem_cons_self),
      ih fun line' member => complete line' (List.mem_cons_of_mem line member)]
    rfl

end Log

namespace Recipe

theorem getElem?_ofBlocks_append {recipe : Recipe} {blocks : Fin recipe.blocks → List (List UInt8)}
    (complete : ∀ b, recipe.IsBlock (blocks b)) (rest : Log) (b : Fin recipe.blocks) {column : Nat}
    (inBlock : column ≤ recipe.metrics.length) :
    (Log.ofBlocks blocks ++ rest).lines[recipe.lineNumber b column]? = (blocks b)[column]? := by
  have there := getElem?_ofBlocks complete b inBlock
  have inside : column < (blocks b).length := by
    rw [(complete b).length]
    exact Nat.lt_succ_of_le inBlock
  rw [List.getElem?_eq_getElem inside] at there ⊢
  have lines := isLine_of_mem_blocks complete
  rw [Log.ofBlocks, Log.lines_flatten lines] at there
  rw [Log.ofBlocks, Log.lines_flatten_append lines,
    List.getElem?_append_left (List.getElem?_eq_some_iff.1 there).1, there]

end Recipe

section Table

variable {recipe : Recipe} {table : Fin recipe.blocks → Fin recipe.metrics.length → Entry}
  {lines : Fin recipe.blocks → Fin recipe.metrics.length → List Char}
  {separators : Fin recipe.blocks → List Char}

/-- Reading undoes writing: in a log with a line for each number of a table, each block of it with a
separator line, the sample of a metric in a block is the number of the table. -/
theorem read_written (valid : recipe.validate = .ok ())
    (whole : ∀ spec ∈ recipe.metrics, spec.kind = .float → spec.separator ≠ .removeDots)
    (written : ∀ b j, (table b j).IsLine recipe.metrics[j] (lines b j))
    (ends : ∀ b, ∃ text, '\n' ∉ text ∧ separators b = text ++ ['\n']) (rest : Log) :
    ∃ series, (recipe.read (Log.ofBlocks (fun b => Log.blockOf (lines b) (separators b))
        ++ rest)).outcome = .ok series ∧
      series.map Series.spec = recipe.metrics ∧ (∀ s ∈ series, s.samples.length = recipe.blocks) ∧
      ∀ b j, ∃ s sample, series[j.val]? = some s ∧ s.samples[b.val]? = some sample ∧
        (table b j).IsSample sample := by
  have complete : ∀ b, recipe.IsBlock (Log.blockOf (lines b) (separators b)) := by
    intro b
    refine ⟨by simp [Log.blockOf], fun line mem => ?_⟩
    simp only [Log.blockOf, List.mem_map, List.mem_append, List.mem_ofFn, List.mem_singleton] at mem
    obtain ⟨text, ⟨j, rfl⟩ | rfl, rfl⟩ := mem
    · exact (written b j).isLine_encode (whole _ (List.getElem_mem _))
    · obtain ⟨text, plain, same⟩ := ends b
      rw [same]
      exact Log.isLine_encode plain
  have line (b : Fin recipe.blocks) (j : Fin recipe.metrics.length) :=
    (Recipe.getElem?_ofBlocks_append complete rest b (Nat.le_of_lt j.isLt)).trans
      (Log.getElem?_blockOf (lines b) (separators b) j)
  have separator (b : Fin recipe.blocks) :=
    (Recipe.getElem?_ofBlocks_append complete rest b (Nat.le_refl _)).trans
      (Log.getElem?_blockOf_width (lines b) (separators b))
  have fits : recipe.Fits
      (Log.ofBlocks (fun b => Log.blockOf (lines b) (separators b)) ++ rest).lines := by
    refine ⟨fun {block column spec} inBlocks metric => ?_, fun {block bytes} inBlocks there => ?_⟩
    · obtain ⟨inBlock, rfl⟩ := List.getElem?_eq_some_iff.1 metric
      obtain ⟨sample, holds, -⟩ :=
        (written ⟨block, inBlocks⟩ ⟨column, inBlock⟩).sample (whole _ (List.getElem_mem _))
      rw [line ⟨block, inBlocks⟩ ⟨column, inBlock⟩]
      exact Option.isSome_iff_exists.2 ⟨sample, holds⟩
    · rw [separator ⟨block, inBlocks⟩] at there
      obtain rfl := Option.some.inj there
      rw [Log.decode?_encode]
      rfl
  obtain ⟨series, run⟩ := (Recipe.outcome_eq_ok_iff valid).2 fits
  have gives := Recipe.gives_of_outcome_eq_ok valid run
  refine ⟨series, run, gives.specs, fun s member => gives.length_samples member, fun b j => ?_⟩
  have size : series.length = recipe.metrics.length := by
    simpa using congrArg List.length gives.specs
  have inside : j.val < series.length := Nat.lt_of_lt_of_eq j.isLt size.symm
  have there : series[j.val]? = some series[j.val] := List.getElem?_eq_getElem inside
  have spec : recipe.metrics[j] = series[j.val].spec :=
    (List.getElem?_eq_some_iff.1 (gives.metric there)).2
  obtain ⟨sample, holds, is_sample⟩ := (written b j).sample (whole _ (List.getElem_mem _))
  refine ⟨_, sample, there, ?_, is_sample⟩
  rw [gives.sample there b.isLt, line b j, ← spec]
  exact holds

end Table

/-- A recipe of a count with thousands separators and a fraction, for logs of three trips. -/
def Recipe.trips : Recipe where
  name := "trips"
  blocks := 3
  metrics := [⟨"steps", .integer, 3, .removeDots⟩, ⟨"miles", .float, 0, .commaToDot⟩]

def oneAndHalf : Binary64 := .ofRatio false 3 2

/-- The row of numbers of every trip. -/
def tripRow : Fin 2 → Entry
  | 0 => .integer (-1234567)
  | 1 => .float oneAndHalf

def tripLines : Fin 2 → List Char
  | 0 => "-1.23.4567 €\n".toList
  | 1 => "1,5\n".toList

theorem isLine_tripLines (j : Fin 2) :
    (tripRow j).IsLine (Recipe.trips.metrics.get j) (tripLines j) := by
  match j with
  | 0 =>
    have text : "-1.23.4567".toList.filter (· ≠ '.') = decimalText (-1234567 : Int64).toInt := by
      decide +kernel
    exact ⟨rfl, trivial, "-1.23.4567".toList, " €".toList, by decide, text, by decide, by decide⟩
  | 1 =>
    have finite : oneAndHalf.isFinite = true := by decide +kernel
    have text : "1,5".toList = oneAndHalf.readable.map fun c => if c = '.' then ',' else c := by
      decide +kernel
    exact ⟨rfl, finite, "1,5".toList, [], by decide, text, by decide, by decide⟩

/-- The fraction of every trip is read as it was written, dots and the character of three bytes in
the line above notwithstanding, and so is what a separator line says. -/
theorem read_written_trips :
    Recipe.trips.validate = .ok () ∧
      (∀ spec ∈ Recipe.trips.metrics, spec.kind = .float → spec.separator ≠ .removeDots) ∧
      ∃ series, (Recipe.trips.read (Log.ofBlocks (fun _ : Fin 3 =>
          Log.blockOf tripLines "12,5 m\n".toList) ++ [0xff])).outcome = .ok series ∧
        ∀ b : Fin 3, ∃ s, series[1]? = some s ∧ s.samples[b.val]? = some oneAndHalf := by
  have valid : Recipe.trips.validate = .ok () := by decide
  have whole : ∀ spec ∈ Recipe.trips.metrics, spec.kind = .float →
    spec.separator ≠ .removeDots := by decide
  have ends : ∀ _ : Fin 3, ∃ text, '\n' ∉ text ∧ "12,5 m\n".toList = text ++ ['\n'] :=
    fun _ => ⟨"12,5 m".toList, by decide, by decide⟩
  obtain ⟨series, run, -, -, samples⟩ := read_written valid whole
    (fun (_ : Fin Recipe.trips.blocks) j => isLine_tripLines j) ends [0xff]
  refine ⟨valid, whole, series, run, fun b => ?_⟩
  obtain ⟨s, sample, there, there', same⟩ := samples b ⟨1, by decide⟩
  cases same
  exact ⟨s, there, there'⟩

end BenchLog
