import BenchLog.Proofs.Decimal.Layout
import BenchLog.Report.Table
import Mathlib.Data.List.Forall2

/-!
# Columns of the table

The first column is as wide as the longest name takes bytes, and so no narrower than any name has
characters (`length_le_nameWidth`). A line whose texts are no longer than their columns are wide has its
bars and its end where the widths put them (`inColumns_append`). So the bars of the heading and of all rows
stand below each other, and no name is cut (`table_aligned`).
-/

namespace BenchLog

open Binary64

namespace Table

/-! ## The width of the names -/

/-- A character takes a byte at least. -/
theorem length_le_utf8ByteSize (text : List Char) :
    text.length ≤ (String.ofList text).utf8ByteSize := by
  induction text with
  | nil => exact Nat.zero_le _
  | cons c text ih =>
    have bytes : (String.ofList (c :: text)).utf8ByteSize =
        c.utf8Size + (String.ofList text).utf8ByteSize := by
      rw [String.ofList_cons, String.utf8ByteSize_append, String.utf8ByteSize_singleton]
    have pos := c.utf8Size_pos
    rw [bytes, List.length_cons]
    omega

theorem utf8ByteSize_le_nameWidth {summary : Summary} {result : MetricResult}
    (mem : result ∈ summary.metrics) : result.name.utf8ByteSize ≤ nameWidth summary :=
  (List.max?_eq_some_iff.1 List.max?_cons').2 _ (List.mem_cons_of_mem _ (List.mem_map_of_mem mem))

theorem length_title_le_nameWidth (summary : Summary) : "Metric".length ≤ nameWidth summary :=
  (List.max?_eq_some_iff.1 List.max?_cons').2 _ List.mem_cons_self

theorem length_le_nameWidth {summary : Summary} {result : MetricResult}
    (mem : result ∈ summary.metrics) : result.name.toList.length ≤ nameWidth summary := by
  have characters := length_le_utf8ByteSize result.name.toList
  rw [String.ofList_toList] at characters
  exact Nat.le_trans characters (utf8ByteSize_le_nameWidth mem)

/-! ## Columns -/

/-- Where the bars stand that come before columns of the given widths and behind so many characters. -/
def barPlaces (start : Nat) : List Nat → List Nat
  | [] => []
  | width :: widths => (start + 1) :: barPlaces (start + 3 + width) widths

/-- Where a line ends that has columns of the given widths behind so many characters. -/
def endPlace (start : Nat) : List Nat → Nat
  | [] => start
  | width :: widths => endPlace (start + 3 + width) widths

/-- A bar, and a text that is filled up to the width of its column. -/
def cell (column : Nat × List Char) : List Char := bar ++ padLeft column.1 column.2

/-- Behind so many characters of the line there are columns of the given widths, each with a bar before it
and with its text at its end, and nothing else. -/
structure InColumns (start : Nat) (columns : List (Nat × List Char)) (text : List Char) : Prop where
  length : text.length = endPlace start (columns.map (·.1))
  bars : ∀ place ∈ barPlaces start (columns.map (·.1)), text[place]? = some '│'
  texts : List.Forall₂ (fun place column =>
      (text.drop (place + 2)).take column.1 = padLeft column.1 column.2)
    (barPlaces start (columns.map (·.1))) columns

theorem inColumns_append {columns : List (Nat × List Char)}
    (fit : ∀ column ∈ columns, column.2.length ≤ column.1) (before : List Char) :
    InColumns before.length columns (before ++ columns.flatMap cell) := by
  induction columns generalizing before with
  | nil => exact ⟨by simp [endPlace], by simp [barPlaces], .nil⟩
  | cons column columns ih =>
    obtain ⟨own, others⟩ := List.forall_mem_cons.1 fit
    have width : (padLeft column.1 column.2).length = column.1 := by
      rw [length_padLeft, Nat.max_eq_left own]
    have split : before ++ (column :: columns).flatMap cell =
        (before ++ cell column) ++ columns.flatMap cell := by simp
    have start : (before ++ cell column).length = before.length + 3 + column.1 := by
      rw [List.length_append, cell, List.length_append, width, show bar.length = 3 from rfl,
        Nat.add_assoc]
    have rest := ih others (before ++ cell column)
    rw [← split, start] at rest
    refine ⟨?_, ?_, ?_⟩
    · rw [rest.length, List.map_cons, endPlace]
    · rw [List.map_cons, barPlaces, List.forall_mem_cons]
      refine ⟨?_, rest.bars⟩
      rw [List.getElem?_append_right (Nat.le_add_right _ _), Nat.add_sub_cancel_left]
      rfl
    · rw [List.map_cons, barPlaces]
      refine .cons ?_ rest.texts
      have behind : before ++ (column :: columns).flatMap cell =
          (before ++ bar) ++ (padLeft column.1 column.2 ++ columns.flatMap cell) := by simp [cell]
      rw [behind, List.drop_left' (by rw [List.length_append]; rfl), List.take_left' width]

/-! ## Lines -/

def titles : List (Nat × List Char) :=
  [(16, "Trimmed mean".toList), (14, "Dropped min".toList), (14, "Dropped max".toList),
    (12, "Std dev".toList), (7, "CV".toList)]

/-- The figures of a result, with the widths of their columns. -/
def figures (result : MetricResult) : List (Nat × List Char) :=
  [(16, figure result.mean), (14, figure result.droppedMin), (14, figure result.droppedMax),
    (12, figure result.spread.stdDev), (7, percentage result.spread.coefficientOfVariation)]

/-- The first column, with the blanks before it. -/
def nameCell (width : Nat) (name : List Char) : List Char := ' ' :: ' ' :: padRight width name

theorem length_nameCell {width : Nat} {name : List Char} (fits : name.length ≤ width) :
    (nameCell width name).length = width + 2 := by
  rw [nameCell, List.length_cons, List.length_cons, length_padRight, Nat.max_eq_left fits]

theorem row_eq (width : Nat) (name : List Char) (columns : List (Nat × List Char)) :
    row width name columns = nameCell width name ++ columns.flatMap cell ++ ['\n'] := by
  simp only [row, nameCell, List.cons_append, List.append_assoc]
  rfl

/-! ## Line breaks -/

theorem newLine_notMem_figure (x : Binary64) : '\n' ∉ figure x := by
  have fixed (places : Nat) : '\n' ∉ x.fixed places :=
    Binary64.newLine_notMem_written (fun m => Decimal.newLine_notMem_pointed _) x
  unfold figure
  split
  · exact fixed 4
  · exact fixed 2

theorem newLine_notMem_percentage (x : Binary64) : '\n' ∉ percentage x := by
  unfold percentage
  split
  · exact List.not_mem_append
      (Binary64.newLine_notMem_written (fun m => Decimal.newLine_notMem_pointed _) _) (by decide)
  · decide

theorem newLine_notMem_line {width : Nat} {name : List Char} {columns : List (Nat × List Char)}
    (single : '\n' ∉ name) (each : ∀ column ∈ columns, '\n' ∉ column.2) :
    '\n' ∉ nameCell width name ++ columns.flatMap cell := by
  refine List.not_mem_append (by simp [nameCell, padRight, single]) fun mem => ?_
  obtain ⟨column, mem, inCell⟩ := List.mem_flatMap.1 mem
  simp [cell, bar, padLeft, each column mem] at inCell

/-! ## The table -/

/-- Is no figure of the result longer than its column is wide? -/
def FiguresFit (result : MetricResult) : Prop :=
  ∀ column ∈ figures result, column.2.length ≤ column.1

/-- A line of the table behind a first column of so many characters: where its bars are, where it ends, and
which texts stand before the bars and the end. -/
structure IsAligned (width : Nat) (columns : List (Nat × List Char)) (text : List Char) : Prop where
  length : text.length = width + 80
  bars : ∀ place ∈ [width + 3, width + 22, width + 39, width + 56, width + 71],
    text[place]? = some '│'
  texts : List.Forall₂ (fun place column =>
      (text.drop (place + 2)).take column.1 = padLeft column.1 column.2)
    [width + 3, width + 22, width + 39, width + 56, width + 71] columns

theorem isAligned_of_widths {width : Nat} {name : List Char} {columns : List (Nat × List Char)}
    (widths : columns.map (·.1) = [16, 14, 14, 12, 7]) (name_fits : name.length ≤ width)
    (fit : ∀ column ∈ columns, column.2.length ≤ column.1) :
    IsAligned width columns (nameCell width name ++ columns.flatMap cell) := by
  have placed := inColumns_append fit (nameCell width name)
  rw [length_nameCell name_fits] at placed
  have length := placed.length
  have bars := placed.bars
  have texts := placed.texts
  rw [widths] at length bars texts
  exact ⟨length, bars, texts⟩

theorem newLine_notMem_figures (result : MetricResult) : ∀ column ∈ figures result, '\n' ∉ column.2 := by
  simp only [figures, List.forall_mem_cons]
  exact ⟨newLine_notMem_figure _, newLine_notMem_figure _, newLine_notMem_figure _,
    newLine_notMem_figure _, newLine_notMem_percentage _, List.forall_mem_nil _⟩

theorem getLast?_preamble (summary : Summary) : (preamble summary).getLast? = some '\n' := by
  simp only [preamble, String.toList_append, List.getLast?_append]
  rfl

/-- The table has a heading and a row for each metric, which begins with the full name, if no name has a
line break. The bars and the end of the heading, and of every row whose figures fit their columns, have the
same places, those that the first column leaves them, and every text ends before the next bar or the end. -/
theorem table_aligned (summary : Summary)
    (single : ∀ result ∈ summary.metrics, '\n' ∉ result.name.toList) :
    let width := nameWidth summary
    ∃ (heading rule : List Char) (rows : List (List Char)),
      summary.table = preamble summary ++ (heading :: rule :: rows).flatMap (· ++ ['\n']) ++ ['\n'] ∧
      (preamble summary).getLast? = some '\n' ∧ (∀ text ∈ heading :: rule :: rows, '\n' ∉ text) ∧
      nameCell width "Metric".toList <+: heading ∧ IsAligned width titles heading ∧
      List.Forall₂ (fun result row => result.name.toList.length ≤ width ∧
        nameCell width result.name.toList <+: row ∧
        (FiguresFit result → IsAligned width (figures result) row)) summary.metrics rows := by
  intro width
  refine ⟨nameCell width "Metric".toList ++ titles.flatMap cell,
    ' ' :: ' ' :: List.replicate (width + 79) '─', summary.metrics.map fun result =>
      nameCell width result.name.toList ++ (figures result).flatMap cell, ?_, getLast?_preamble summary,
    ?_, List.prefix_append _ _, ?_, ?_⟩
  · have header_eq : header width = _ := row_eq width "Metric".toList titles
    have metricRow_eq : metricRow width = fun result => _ :=
      funext fun result => row_eq width result.name.toList (figures result)
    rw [Summary.table, header_eq, metricRow_eq, rule]
    simp only [List.flatMap_cons, List.flatMap_map, List.append_assoc, List.cons_append]
    rfl
  · rw [List.forall_mem_cons, List.forall_mem_cons, List.forall_mem_map]
    exact ⟨newLine_notMem_line (by decide) (by decide), by simp, fun result mem =>
      newLine_notMem_line (single result mem) (newLine_notMem_figures result)⟩
  · exact isAligned_of_widths rfl (length_title_le_nameWidth summary) (by decide)
  · rw [List.forall₂_map_right_iff, List.forall₂_same]
    exact fun result mem => ⟨length_le_nameWidth mem, List.prefix_append _ _,
      isAligned_of_widths rfl (length_le_nameWidth mem)⟩

/-- A result of equal samples. -/
def evenLaps (name : String) : MetricResult where
  name
  kind := .float
  mean := ofNat 250
  droppedMin := ofNat 250
  droppedMax := ofNat 250
  spread := ⟨ofNat 250, ofNat 250, ofNat 250, ofNat 250, zero, 1⟩
  samples := [ofNat 250, ofNat 250, ofNat 250]

/-- An empty name, and one of three characters and nine bytes. -/
def shortNames : Summary where
  recipe := "laps"
  blocks := 3
  metrics := [evenLaps "", evenLaps "周回時"]

/-- The rows of two short names have their bars where the heading has them, with nine characters for the
names. -/
theorem table_aligned_shortNames :
    (∀ result ∈ shortNames.metrics, '\n' ∉ result.name.toList) ∧
    (∀ result ∈ shortNames.metrics, FiguresFit result) ∧
    ∃ heading rule first second : List Char,
      shortNames.table = preamble shortNames ++
        [heading, rule, first, second].flatMap (· ++ ['\n']) ++ ['\n'] ∧
      ∀ text ∈ [heading, first, second], text.length = 89 ∧
        ∀ place ∈ [12, 31, 48, 65, 80], text[place]? = some '│' := by
  have single : ∀ result ∈ shortNames.metrics, '\n' ∉ result.name.toList := by decide
  have width : nameWidth shortNames = 9 := by decide +kernel
  have fit : ∀ result ∈ shortNames.metrics, FiguresFit result := by
    unfold FiguresFit
    decide +kernel
  obtain ⟨heading, rule, rows, table, -, -, -, aligned, each⟩ := table_aligned shortNames single
  rw [width] at aligned each
  obtain ⟨first, others, ⟨-, -, first_aligned⟩, rest, rfl⟩ := List.forall₂_cons_left_iff.1 each
  obtain ⟨second, none, ⟨-, -, second_aligned⟩, last, rfl⟩ := List.forall₂_cons_left_iff.1 rest
  obtain rfl := List.forall₂_nil_left_iff.1 last
  have first_aligned := first_aligned (fit _ List.mem_cons_self)
  have second_aligned := second_aligned (fit _ (List.mem_cons_of_mem _ List.mem_cons_self))
  refine ⟨single, fit, heading, rule, first, second, table, ?_⟩
  intro text mem
  simp only [List.mem_cons, List.not_mem_nil, or_false] at mem
  rcases mem with rfl | rfl | rfl
  · exact ⟨aligned.length, aligned.bars⟩
  · exact ⟨first_aligned.length, first_aligned.bars⟩
  · exact ⟨second_aligned.length, second_aligned.bars⟩

end Table

end BenchLog
