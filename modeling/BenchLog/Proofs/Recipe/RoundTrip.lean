import BenchLog.Proofs.Toml.Statements
import BenchLog.Recipe.Document

/-!
# Recipes in TOML read back

The statements of a recipe build its document (`Recipe.ofStatements?_statements`), and the recipe is
taken back out of it (`Recipe.ofToml?_document`). So whatever text spells these statements, reading
it gives the recipe, or says why the recipe cannot be used (`Recipe.ofText_written`).
-/

namespace BenchLog

open Toml (Entries Draft SpellsDocument finishAll)

/-! ## Building the document -/

namespace MetricSpec

/-- The table of a metric while it grows. -/
def entries (spec : MetricSpec) : Entries :=
  [("name", .value (.string spec.name)), ("kind", .value (.string spec.kind.word)),
    ("strip", .value (.integer spec.strip)), ("separator", .value (.string spec.separator.word))]

/-- The statements behind the first, which begins the table. -/
def fields (spec : MetricSpec) : List Toml.Statement :=
  [.field "name" (.string spec.name), .field "kind" (.string spec.kind.word),
    .field "strip" (.integer spec.strip), .field "separator" (.string spec.separator.word)]

theorem statements_eq (spec : MetricSpec) :
    spec.statements = .element ⟨[], "metrics"⟩ :: spec.fields := rfl

def document (spec : MetricSpec) : Toml :=
  .table [("name", .string spec.name), ("kind", .string spec.kind.word),
    ("strip", .integer spec.strip), ("separator", .string spec.separator.word)]

theorem finishAll_entries (spec : MetricSpec) :
    Toml.table (finishAll spec.entries) = spec.document := by
  simp [entries, document, finishAll, Toml.Item.finish]

end MetricSpec

namespace Recipe

variable (recipe : Recipe)

/-- The outermost table while the list of metrics grows. -/
def growing (earlier : List Toml) (last : Entries) : Entries :=
  [("name", .value (.string recipe.name)), ("blocks", .value (.integer recipe.blocks)),
    ("metrics", .tables earlier last)]

def document : Toml :=
  .table [("name", .string recipe.name), ("blocks", .integer recipe.blocks),
    ("metrics", .array (recipe.metrics.map MetricSpec.document))]

variable {recipe} {earlier : List Toml} {last : Entries}

/-- A list element begins with an empty table. -/
theorem apply_element (here : List String) :
    Draft.apply ⟨recipe.growing earlier last, here⟩ (.element ⟨[], "metrics"⟩) =
      some ⟨recipe.growing (earlier ++ [.table (finishAll last)]) [], ["metrics"]⟩ := by
  simp [growing, Draft.apply, Entries.extend, Entries.change, Entries.put, List.lookup_cons]

/-- A field of a new name goes to the last table of the list. -/
theorem apply_field {name : String} (new : last.lookup name = none) (value : Toml) :
    Draft.apply ⟨recipe.growing earlier last, ["metrics"]⟩ (.field name value) =
      some ⟨recipe.growing earlier (last ++ [(name, .value value)]), ["metrics"]⟩ := by
  simp [growing, Draft.apply, Toml.Statement.field, Entries.insertAt, Entries.insert,
    Entries.change, Entries.put, List.lookup_cons, new]

theorem foldlM_fields (spec : MetricSpec) :
    spec.fields.foldlM Draft.apply ⟨recipe.growing earlier [], ["metrics"]⟩ =
      some ⟨recipe.growing earlier spec.entries, ["metrics"]⟩ := by
  rw [MetricSpec.fields, List.foldlM_cons, apply_field (by rfl), Option.bind_eq_bind,
    Option.bind_some, List.foldlM_cons, apply_field (by rfl), Option.bind_eq_bind,
    Option.bind_some, List.foldlM_cons, apply_field (by rfl), Option.bind_eq_bind,
    Option.bind_some, List.foldlM_cons, apply_field (by rfl)]
  rfl

/-- Each metric adds its document to the list. -/
theorem foldlM_metrics (specs : List MetricSpec) (here : List String) :
    ∃ draft, (specs.flatMap MetricSpec.statements).foldlM Draft.apply
        ⟨recipe.growing earlier last, here⟩ = some draft ∧
      finishAll draft.entries = [("name", .string recipe.name), ("blocks", .integer recipe.blocks),
        ("metrics", .array (earlier ++ .table (finishAll last) ::
          specs.map MetricSpec.document))] := by
  induction specs generalizing earlier last here with
  | nil => exact ⟨_, rfl, by simp [growing, finishAll, Toml.Item.finish]⟩
  | cons spec specs ih =>
    obtain ⟨draft, run, finished⟩ :=
      @ih (earlier ++ [.table (finishAll last)]) spec.entries ["metrics"]
    refine ⟨draft, ?_, ?_⟩
    · rw [List.flatMap_cons, spec.statements_eq, List.cons_append, List.foldlM_cons, apply_element,
        Option.bind_eq_bind, Option.bind_some, List.foldlM_append, foldlM_fields,
        Option.bind_eq_bind, Option.bind_some, run]
    · rw [finished, spec.finishAll_entries, List.append_assoc]
      rfl

/-- The statements of a recipe build its document. -/
theorem ofStatements?_statements (recipe : Recipe) :
    Toml.ofStatements? recipe.statements = some recipe.document := by
  obtain ⟨name, blocks, metrics⟩ := recipe
  cases metrics with
  | nil => rfl
  | cons spec specs =>
    -- the first metric makes the list, all others extend it
    let recipe : Recipe := ⟨name, blocks, spec :: specs⟩
    obtain ⟨draft, run, finished⟩ :=
      @foldlM_metrics recipe [] spec.entries specs ["metrics"]
    have first : recipe.statements.foldlM Draft.apply {} =
        (spec.fields ++ specs.flatMap MetricSpec.statements).foldlM Draft.apply
          ⟨recipe.growing [] [], ["metrics"]⟩ := rfl
    rw [List.foldlM_append, foldlM_fields, Option.bind_eq_bind, Option.bind_some, run] at first
    unfold Toml.ofStatements?
    rw [first, Option.bind_eq_bind, Option.bind_some, finished, spec.finishAll_entries]
    rfl

/-! ## Taking the recipe out -/

theorem ofToml?_spec (spec : MetricSpec) : MetricSpec.ofToml? spec.document = some spec := by
  simp [MetricSpec.document, MetricSpec.ofToml?, MetricSpec.ofFields?, Toml.fieldOr, Toml.choice?,
    Toml.text?, Toml.natural?, List.lookup_cons, NumericKind.ofWord?_word,
    SeparatorRule.ofWord?_word]

theorem ofToml?_document (recipe : Recipe) : ofToml? recipe.document = some recipe := by
  have metrics (specs : List MetricSpec) :
      (specs.map MetricSpec.document).mapM MetricSpec.ofToml? = some specs := by
    induction specs with
    | nil => rfl
    | cons spec specs ih => rw [List.map_cons, List.mapM_cons, ofToml?_spec, ih]; rfl
  simp [document, ofToml?, Toml.fieldOr, Toml.text?, Toml.items?, Toml.natural?, List.lookup_cons,
    metrics]

/-! ## Writing and reading -/

theorem isWritten_statement {recipe : Recipe} (blocks : fitsSigned64 recipe.blocks = true)
    (strips : ∀ spec ∈ recipe.metrics, fitsSigned64 spec.strip = true) :
    ∀ statement ∈ recipe.statements, Toml.IsWritten statement := by
  have string (name text : String) : Toml.IsWritten (.field name (.string text)) :=
    Toml.isWritten_entry (.string (Toml.spellsText_quote text.toList))
  have natural (name : String) {n : Nat} (fits : fitsSigned64 n = true) :
      Toml.IsWritten (.field name (.integer n)) := Toml.isWritten_entry (.natural fits)
  intro statement mem
  simp only [statements, List.mem_append, List.mem_cons, List.not_mem_nil, or_false] at mem
  rcases mem with (rfl | rfl) | mem
  · exact string _ _
  · exact natural _ blocks
  · split at mem
    · obtain rfl := List.mem_singleton.1 mem
      exact Toml.isWritten_entry (.noItems .nothing)
    · obtain ⟨spec, inMetrics, mem⟩ := List.mem_flatMap.1 mem
      simp only [MetricSpec.statements, List.mem_cons, List.not_mem_nil, or_false] at mem
      rcases mem with rfl | rfl | rfl | rfl | rfl
      · exact Toml.isWritten_element _
      · exact string _ _
      · exact string _ _
      · exact natural _ (strips spec inMetrics)
      · exact string _ _

/-- A recipe whose numbers fit 64 signed bits can be written in TOML. However its statements are
spelled, reading the text gives the recipe back if it can be used, and else the reason why not. -/
theorem ofText_written (recipe : Recipe) (blocks : recipe.blocks ≤ Nat.pow 2 63 - 1)
    (strips : ∀ spec ∈ recipe.metrics, spec.strip ≤ Nat.pow 2 63 - 1) :
    (∃ text, recipe.written? = some text ∧ SpellsDocument recipe.statements text) ∧
      ∀ text, SpellsDocument recipe.statements text →
        (recipe.validate = .ok () → ofText text = .ok recipe) ∧
        ∀ fault, recipe.validate = .error fault → ofText text = .error (.unusable fault) := by
  have fits {n : Nat} (le : n ≤ Nat.pow 2 63 - 1) : fitsSigned64 n = true := by
    have : Nat.pow 2 63 - 1 = 9223372036854775807 := rfl
    exact fitsSigned64_iff.2 (by omega)
  have blocks' := fits blocks
  have strips' : ∀ spec ∈ recipe.metrics, fitsSigned64 spec.strip = true :=
    fun spec mem => fits (strips spec mem)
  constructor
  · refine ⟨Toml.writeDocument recipe.statements, ?_,
      Toml.spellsDocument_write (isWritten_statement blocks' strips')⟩
    rw [written?, blocks', List.all_eq_true.2 strips']
    rfl
  · intro text spelled
    have read : (Toml.read? text).bind ofToml? = some recipe := by
      rw [Toml.read?_of_spells spelled, ofStatements?_statements, Option.bind_some,
        ofToml?_document]
    unfold ofText
    rw [read]
    dsimp only
    constructor
    · intro valid
      rw [valid]
    · intro fault invalid
      rw [invalid]

/-- A recipe with quotes, a backslash, a line feed and a control character in its names. -/
def oddNames : Recipe where
  name := "a\n'b'"
  blocks := 3
  metrics := [⟨"\"\\\x00é", .integer, 2, .removeDots⟩, ⟨"", .float, 0, .keep⟩]

theorem ofText_written_oddNames :
    oddNames.blocks ≤ Nat.pow 2 63 - 1 ∧
      (∀ spec ∈ oddNames.metrics, spec.strip ≤ Nat.pow 2 63 - 1) ∧
      ∃ text, oddNames.written? = some text ∧ ofText text = .ok oddNames := by
  have blocks : oddNames.blocks ≤ Nat.pow 2 63 - 1 := by decide
  have strips : ∀ spec ∈ oddNames.metrics, spec.strip ≤ Nat.pow 2 63 - 1 := by decide
  obtain ⟨⟨text, written, spelled⟩, read⟩ := ofText_written oddNames blocks strips
  exact ⟨blocks, strips, text, written, (read text spelled).1 rfl⟩

end Recipe

end BenchLog
