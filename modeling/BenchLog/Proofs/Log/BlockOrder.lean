import BenchLog.Proofs.Log.Layout
import Mathlib.Data.List.FinRange

/-!
# The order of the blocks of a log

A log can be put together from blocks whose lines are complete (`Log.ofBlocks`), and then the lines
of each block stand where the recipe looks for them (`Recipe.getElem?_ofBlocks`). So the blocks may
change places: the log can be read if it could before (`Recipe.fits_permuted_iff`), and the samples
of every metric change places with the blocks (`Recipe.Gives.permuted`).
-/

namespace BenchLog

namespace Log

/-- A complete line has one line feed, at its end. -/
def IsLine (line : List UInt8) : Prop := ∃ text, lineFeed ∉ text ∧ line = text ++ [lineFeed]

theorem isLine_iff {line : List UInt8} :
    IsLine line ↔ lineFeed ∉ line.dropLast ∧ line = line.dropLast ++ [lineFeed] := by
  constructor
  · rintro ⟨text, plain, rfl⟩
    rw [List.dropLast_concat]
    exact ⟨plain, rfl⟩
  · exact fun ⟨plain, ends⟩ => ⟨_, plain, ends⟩

instance : DecidablePred IsLine := fun _ => decidable_of_iff _ isLine_iff.symm

theorem lines_append {line : List UInt8} (complete : IsLine line) (log : Log) :
    lines (line ++ log) = line :: lines log := by
  obtain ⟨text, plain, rfl⟩ := complete
  induction text with
  | nil => simp [lines]
  | cons byte text ih =>
    obtain ⟨other, plain⟩ := not_or.1 (fun h => plain (List.mem_cons.2 h))
    rw [List.cons_append, List.cons_append, lines, if_neg (Ne.symm other), ih plain]

/-- Complete lines, put together, are cut again into these lines. -/
theorem lines_flatten {lines : List (List UInt8)} (complete : ∀ line ∈ lines, IsLine line) :
    Log.lines lines.flatten = lines := by
  induction lines with
  | nil => rfl
  | cons line lines ih =>
    rw [List.flatten_cons, lines_append (complete line List.mem_cons_self),
      ih fun line' member => complete line' (List.mem_cons_of_mem line member)]

/-- The log of blocks, each of which is a list of lines. -/
def ofBlocks {count : Nat} (blocks : Fin count → List (List UInt8)) : Log :=
  (List.ofFn blocks).flatten.flatten

end Log

/-- In rows of one width, an element has a row and a column. -/
theorem getElem?_flatten_of_length {α : Type} {rows : List (List α)} {width : Nat}
    (size : ∀ row ∈ rows, row.length = width) {index column : Nat} (inside : column < width) :
    rows.flatten[index * width + column]? = rows[index]?.bind (·[column]?) := by
  induction rows generalizing index with
  | nil => simp
  | cons row rows ih =>
    have first := size row List.mem_cons_self
    rw [List.flatten_cons]
    cases index with
    | zero => rw [Nat.zero_mul, Nat.zero_add, List.getElem?_append_left (by omega)]; rfl
    | succ index =>
      rw [Nat.succ_mul, List.getElem?_append_right (by omega), first,
        show index * width + width + column - width = index * width + column by omega,
        ih fun row' member => size row' (List.mem_cons_of_mem row member)]
      rfl

/-- A list that has the elements of another in changed places is a permutation of it. -/
theorem perm_of_getElem?_eq {α : Type} {n : Nat} {xs ys : List α} (size : xs.length = n)
    (size' : ys.length = n) (order : Equiv.Perm (Fin n))
    (same : ∀ i : Fin n, ys[i.val]? = xs[(order i).val]?) : ys.Perm xs := by
  subst size
  have permuted : ys = List.ofFn ((fun i : Fin xs.length => xs[i]) ∘ order) := by
    apply List.ext_getElem (by simp [size'])
    intro i inside inside'
    have at_ := same ⟨i, by omega⟩
    rw [List.getElem?_eq_getElem inside, List.getElem?_eq_getElem (by omega)] at at_
    simpa using at_
  have whole : xs = List.ofFn fun i : Fin xs.length => xs[i] := by simp
  rw [permuted]
  conv => rhs; rw [whole]
  exact order.ofFn_comp_perm _

namespace Recipe

variable {recipe : Recipe}

/-- A block has a line for each metric and a separator line, and all are complete. -/
structure IsBlock (recipe : Recipe) (block : List (List UInt8)) : Prop where
  length : block.length = recipe.metrics.length + 1
  complete : ∀ line ∈ block, Log.IsLine line

theorem isBlock_iff {block : List (List UInt8)} : recipe.IsBlock block ↔
    block.length = recipe.metrics.length + 1 ∧ ∀ line ∈ block, Log.IsLine line :=
  ⟨fun h => ⟨h.length, h.complete⟩, fun h => ⟨h.1, h.2⟩⟩

instance : DecidablePred recipe.IsBlock := fun _ => decidable_of_iff _ isBlock_iff.symm

section Blocks

variable {blocks : Fin recipe.blocks → List (List UInt8)}
  (complete : ∀ b, recipe.IsBlock (blocks b))

include complete

theorem isLine_of_mem_blocks : ∀ line ∈ (List.ofFn blocks).flatten, Log.IsLine line := by
  simp only [List.mem_flatten, List.mem_ofFn]
  rintro line ⟨-, ⟨b, rfl⟩, member⟩
  exact (complete b).complete line member

theorem getElem?_ofBlocks (b : Fin recipe.blocks) {column : Nat}
    (inBlock : column ≤ recipe.metrics.length) :
    (Log.ofBlocks blocks).lines[recipe.lineNumber b column]? = (blocks b)[column]? := by
  have widths : ∀ block ∈ List.ofFn blocks, block.length = recipe.metrics.length + 1 := by
    simp only [List.mem_ofFn]
    rintro - ⟨b, rfl⟩
    exact (complete b).length
  rw [Log.ofBlocks, Log.lines_flatten (isLine_of_mem_blocks complete), lineNumber,
    getElem?_flatten_of_length widths (Nat.lt_succ_of_le inBlock)]
  simp

/-- A log of complete blocks can be read if each block can. -/
theorem fits_ofBlocks_iff : recipe.Fits (Log.ofBlocks blocks).lines ↔
    ∀ b, (∀ (column : Nat) (spec : MetricSpec), recipe.metrics[column]? = some spec →
        ((blocks b)[column]?.bind spec.ofLine?).isSome) ∧
      ∀ line, (blocks b)[recipe.metrics.length]? = some line → (Log.decode? line).isSome := by
  constructor
  · intro fits b
    refine ⟨fun column spec metric => ?_, fun line there => ?_⟩
    · have inBlock := (List.getElem?_eq_some_iff.1 metric).1
      rw [← getElem?_ofBlocks complete b (Nat.le_of_lt inBlock)]
      exact fits.sample b.isLt metric
    · rw [← getElem?_ofBlocks complete b (Nat.le_refl _)] at there
      exact fits.separator b.isLt there
  · intro each
    refine ⟨fun {block column spec} inBlocks metric => ?_, fun {block line} inBlocks there => ?_⟩
    · have inBlock := (List.getElem?_eq_some_iff.1 metric).1
      rw [getElem?_ofBlocks complete ⟨block, inBlocks⟩ (Nat.le_of_lt inBlock)]
      exact (each ⟨block, inBlocks⟩).1 column spec metric
    · rw [getElem?_ofBlocks complete ⟨block, inBlocks⟩ (Nat.le_refl _)] at there
      exact (each ⟨block, inBlocks⟩).2 line there

/-- Whether a log of complete blocks can be read does not depend on their order. -/
theorem fits_permuted_iff (order : Equiv.Perm (Fin recipe.blocks)) :
    recipe.Fits (Log.ofBlocks (blocks ∘ order)).lines ↔
      recipe.Fits (Log.ofBlocks blocks).lines := by
  have permuted := @fits_ofBlocks_iff recipe (blocks ∘ order) fun b => complete (order b)
  rw [permuted, fits_ofBlocks_iff complete]
  constructor
  · intro each b
    have there := each (order.symm b)
    rwa [Function.comp_apply, Equiv.apply_symm_apply] at there
  · exact fun each b => each (order b)

/-- The samples of a metric are in the order of the blocks. -/
theorem Gives.permuted (order : Equiv.Perm (Fin recipe.blocks)) {series series' : List Series}
    (gives : recipe.Gives (Log.ofBlocks blocks).lines series)
    (gives' : recipe.Gives (Log.ofBlocks (blocks ∘ order)).lines series') {column : Nat}
    {s s' : Series} (at_ : series[column]? = some s) (at' : series'[column]? = some s') :
    s'.spec = s.spec ∧ ∀ b : Fin recipe.blocks, s'.samples[b.val]? = s.samples[(order b).val]? := by
  have metric := gives.metric at_
  have specs : s'.spec = s.spec := Option.some.inj ((gives'.metric at').symm.trans metric)
  refine ⟨specs, fun b => ?_⟩
  have inBlock : column ≤ recipe.metrics.length :=
    Nat.le_of_lt (List.getElem?_eq_some_iff.1 metric).1
  have line := @getElem?_ofBlocks recipe (blocks ∘ order) (fun b => complete (order b)) b column
    inBlock
  rw [gives'.sample at' b.isLt, gives.sample at_ (order b).isLt, line,
    getElem?_ofBlocks complete (order b) inBlock, specs]
  rfl

end Blocks

end Recipe

end BenchLog
