import BenchLog.Log.Reader
import BenchLog.Metric.Extraction

/-!
# The blocks of a log

`Recipe.read` reads the blocks of a recipe off a log and gives a `Series` for each metric, with
the samples in the order in which they were read. A block is a line for each metric and a
separator line, whose text does not matter and which may be missing at the very end. Lines after
the last block are not touched.

The samples go into vectors, which are made as long as there are blocks before the first line is
read, and no vector has more than `longestVector` bytes. So `Recipe.parse`, with which the tools read
their logs, gives up before it has read anything if there are too many blocks (`HasRoom`), and
otherwise it is `Recipe.read` (`Recipe.parse_eq_read`). That a machine may have less memory than the
vectors need is left out.
-/

namespace BenchLog

/-- The samples of one metric, in the order in which they were read. -/
structure Series where
  spec : MetricSpec
  samples : List Binary64 := []
  deriving DecidableEq

/-- The sample that a line of a block holds, or what it holds instead. -/
def MetricSpec.sample (spec : MetricSpec) (block : Nat) (line : List Char) :
    Except LogError Binary64 :=
  match spec.extract? line with
  | some value => .ok value
  | none => .error (.notNumber block spec.name spec.kind (spec.clean line))

namespace LogReader

def readSample (block : Nat) (spec : MetricSpec) : LogReader Binary64 := do
  match ← readLine with
  | none => fail (.ended block spec.name)
  | some line =>
    match spec.sample block line with
    | .error error => fail error
    | .ok value =>
      tell (.sampleRead block spec.name value)
      return value

/-- Reads the lines of the metrics of one block. -/
def readRow (block : Nat) : List MetricSpec → LogReader (List Binary64)
  | [] => return []
  | spec :: specs => do
    let value ← readSample block spec
    (value :: ·) <$> readRow block specs

/-- Reads the separator line of a block. Where the log has ended there is nothing to read, which
is worth a warning when more blocks are to come. -/
def readSeparator (block total : Nat) : LogReader Unit := do
  match ← readLine with
  | some _ => return
  | none => if block + 1 < total then tell (.separatorMissing block)

def readBlock (specs : List MetricSpec) (total block : Nat) : LogReader (List Binary64) := do
  let row ← readRow block specs
  readSeparator block total
  tell (.blockRead (block + 1) total)
  return row

/-- Reads so many blocks, of which the first has the number `block`. -/
def readBlocks (specs : List MetricSpec) (total block : Nat) :
    Nat → LogReader (List (List Binary64))
  | 0 => return []
  | count + 1 => do
    let row ← readBlock specs total block
    (row :: ·) <$> readBlocks specs total (block + 1) count

end LogReader

/-- One series for each metric, out of rows with one sample for each metric. -/
def columns (specs : List MetricSpec) (rows : List (List Binary64)) : List Series :=
  specs.mapIdx fun column spec => ⟨spec, rows.filterMap (·[column]?)⟩

/-- Reads the blocks of a recipe, however many there are. A recipe that cannot be used takes nothing
off the log. -/
def Recipe.read (recipe : Recipe) : LogReader (List Series) :=
  match recipe.validate with
  | .error fault => LogReader.fail (.unusableRecipe fault)
  | .ok () =>
    columns recipe.metrics <$> LogReader.readBlocks recipe.metrics recipe.blocks 0 recipe.blocks

/-! ## Room for the samples -/

/-- The most bytes that a vector has. -/
def longestVector : Nat := UInt64.size / 2 - 1

/-- A vector can hold so many samples, of eight bytes each. -/
def HasRoom (samples : Nat) : Prop := 8 * samples ≤ longestVector

instance (samples : Nat) : Decidable (HasRoom samples) := Nat.decLe (8 * samples) longestVector

theorem HasRoom.mono {samples fewer : Nat} (room : HasRoom samples) (le : fewer ≤ samples) :
    HasRoom fewer :=
  Nat.le_trans (Nat.mul_le_mul_left 8 le) room

/-- A vector has fewer samples than there are machine words. -/
theorem HasRoom.lt {samples : Nat} (room : HasRoom samples) : samples < UInt64.size := by
  simp only [HasRoom, longestVector, UInt64.size] at room ⊢
  omega

/-- Makes room for the samples of a recipe that can be used and reads its blocks. Where there cannot
be as much room nothing is taken off the log. -/
def Recipe.parse (recipe : Recipe) : LogReader (List Series) :=
  match recipe.validate with
  | .error fault => LogReader.fail (.unusableRecipe fault)
  | .ok () => if HasRoom recipe.blocks then recipe.read else LogReader.fail .capacityOverflow

namespace Recipe

variable {recipe : Recipe}

theorem parse_of_unusable {fault : Fault} (invalid : recipe.validate = .error fault) :
    recipe.parse = LogReader.fail (.unusableRecipe fault) := by
  rw [parse, invalid]

theorem parse_of_full (valid : recipe.validate = .ok ()) (full : ¬ HasRoom recipe.blocks) :
    recipe.parse = LogReader.fail .capacityOverflow := by
  rw [parse, valid]
  exact if_neg full

theorem parse_eq_read (room : HasRoom recipe.blocks) : recipe.parse = recipe.read := by
  cases valid : recipe.validate with
  | error fault => rw [parse_of_unusable valid, read, valid]
  | ok =>
    rw [parse, valid]
    exact if_pos room

theorem parse_eq_ok_iff {log : Log} {series : List Series} :
    (recipe.parse log).outcome = .ok series ↔
      HasRoom recipe.blocks ∧ (recipe.read log).outcome = .ok series := by
  by_cases room : HasRoom recipe.blocks
  · rw [parse_eq_read room, and_iff_right room]
  · cases valid : recipe.validate with
    | error fault => simp [parse_of_unusable valid, room, LogReader.fail]
    | ok => simp [parse_of_full valid room, room, LogReader.fail]

end Recipe

end BenchLog
