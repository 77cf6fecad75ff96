import BenchLog.Proofs.CommandLine.AllOrNothing
import BenchLog.Proofs.CommandLine.Values

/-!
# Tools with a recipe of their own

A tool with a built-in recipe does what the general tool does that is told the name of this recipe
first. For the arguments, a draft that was told a recipe goes through the same steps as one that was
not (`Told`, `Told.take`, `Told.takeAll`); before the next argument the recipe is still pending, and
afterwards it is settled. So the same arguments come out, the recipe apart (`parse_told`). And the
name is that of a built-in recipe, for which no file is looked up (`Tool.run_fixed`).
-/

namespace BenchLog

open FileTree (exists_of_bind_eq_ok)

namespace Arguments

/-! ## Flags -/

section Flags

variable {version : Bool} {accepted : Accepted} {flag : Flag}

/-- A letter that a tool without a recipe knows means the same to a tool that knows more. -/
theorem flagOfLetter?_of_known (more : accepted.version = true) {letter : Char}
    (known : flagOfLetter? ⟨false, version⟩ letter = some flag) :
    flagOfLetter? accepted letter = some flag ∧ flag ≠ .value .recipe := by
  unfold flagOfLetter? at known ⊢
  grind

theorem flagOfName?_of_known (more : accepted.version = true) {name : List Char}
    (known : flagOfName? ⟨false, version⟩ name = some flag) :
    flagOfName? accepted name = some flag ∧ flag ≠ .value .recipe := by
  have apart : "recipe".toList ≠ "version".toList := by decide
  unfold flagOfName? at known ⊢
  generalize "format".toList = format, "output".toList = output, "help".toList = help,
    "recipe".toList = recipe, "version".toList = version at *
  grind

end Flags

namespace Draft

/-! ## Drafts that were told a recipe -/

/-- The draft with the recipe, if there is one to be told. -/
def withRecipe (recipe : Option String) (draft : Draft) : Draft :=
  { draft with recipe := recipe.or draft.recipe }

/-- The second draft is the first one, told a recipe or nothing. The value that is pending in the
first is not that of a recipe, and a recipe is pending in the second only at the beginning. -/
inductive Told : Option String → Draft → Draft → Prop where
  | settled {recipe : Option String} {draft : Draft}
      (other : ∀ value, draft.pending ≠ some (.recipe, value)) :
      Told recipe draft (draft.withRecipe recipe)
  | pending (name : String) : Told (some name) {} { pending := some (.recipe, some name) }

variable {recipe : Option String} {draft told next : Draft}

theorem isFilled_withRecipe {slot : Slot} (other : slot ≠ .recipe) :
    (draft.withRecipe recipe).isFilled slot = draft.isFilled slot := by
  cases slot with
  | recipe => exact absurd rfl other
  | input => rfl
  | format => rfl
  | output => rfl

theorem put_withRecipe {slot : Slot} {value : String} (other : slot ≠ .recipe) :
    (draft.withRecipe recipe).put slot value = (draft.put slot value).withRecipe recipe := by
  cases slot with
  | recipe => exact absurd rfl other
  | input => rfl
  | format => rfl
  | output => rfl

theorem fill_withRecipe {slot : Slot} (other : slot ≠ .recipe) {value : Option String}
    (go : draft.fill slot value = .ok next) :
    (draft.withRecipe recipe).fill slot value = .ok (next.withRecipe recipe) := by
  cases value with
  | none => cases go
  | some value =>
    rw [fill_some] at go ⊢
    rw [isFilled_withRecipe other]
    split at go
    · cases go
    · next empty =>
      rw [if_neg empty]
      split at go
      · next possible =>
        cases go
        rw [if_pos possible, put_withRecipe other]
      · cases go

/-- What is filled leaves nothing pending that was not. -/
theorem pending_of_fill {slot : Slot} {value : Option String}
    (go : draft.fill slot value = .ok next) : next.pending = draft.pending := by
  unfold fill at go
  repeat' split at go
  all_goals first | cases go; done | (cases go; rfl)

theorem pending_of_settle (go : draft.settle = .ok next) : next.pending = none := by
  unfold settle at go
  split at go
  · next nothing =>
    cases go
    exact nothing
  · exact pending_of_fill go

theorem Told.settle (h : Told recipe draft told) (go : draft.settle = .ok next) :
    told.settle = .ok (next.withRecipe recipe) := by
  cases h with
  | pending name =>
    cases go
    rfl
  | settled other =>
    unfold Draft.settle at go ⊢
    cases waits : draft.pending with
    | none =>
      rw [waits] at go
      cases go
      simp only [withRecipe, waits]
    | some slotted =>
      obtain ⟨slot, value⟩ := slotted
      have apart : slot ≠ .recipe := fun same => other value (by rw [waits, same])
      simp only [waits] at go
      simp only [withRecipe, waits]
      exact fill_withRecipe apart go

theorem Told.hasInput (h : Told recipe draft told) : told.hasInput = draft.hasInput := by
  cases h <;> rfl

theorem Told.takeInput (h : Told recipe draft told) {arg : String}
    (go : draft.takeInput arg = .ok next) :
    ∃ next', told.takeInput arg = .ok next' ∧ Told recipe next next' := by
  unfold Draft.takeInput at go ⊢
  rw [h.hasInput]
  split at go
  · cases go
  · next first =>
    obtain ⟨settled, run, go⟩ := exists_of_bind_eq_ok go
    cases go
    rw [if_neg first, h.settle run]
    exact ⟨_, rfl, .settled (by simp)⟩

theorem Told.takeWord (h : Told recipe draft told) {arg : String}
    (go : draft.takeWord arg = .ok next) :
    ∃ next', told.takeWord arg = .ok next' ∧ Told recipe next next' := by
  unfold Draft.takeWord at go ⊢
  cases h with
  | pending name => exact (Told.pending name).takeInput go
  | settled other =>
    split at go
    · next slot waits =>
      cases go
      simp only [withRecipe, waits]
      exact ⟨_, rfl, .settled (by
        rintro value ⟨⟩
        exact other none waits)⟩
    · next busy =>
      have settled : Told recipe draft (draft.withRecipe recipe) := .settled other
      obtain ⟨next', run, told⟩ := settled.takeInput go
      refine ⟨next', ?_, told⟩
      split
      · next slot waits => exact absurd waits (busy slot)
      · exact run

theorem Told.takeFlag (h : Told recipe draft told) {attached : Option String} {flag : Flag}
    (other : flag ≠ .value .recipe) (go : draft.takeFlag attached flag = .ok next) :
    ∃ next', told.takeFlag attached flag = .ok next' ∧ Told recipe next next' := by
  unfold Draft.takeFlag at go ⊢
  cases flag with
  | help =>
    obtain ⟨_, _, go⟩ := exists_of_bind_eq_ok go
    cases go
  | version =>
    obtain ⟨_, _, go⟩ := exists_of_bind_eq_ok go
    cases go
  | value slot =>
    have apart : slot ≠ .recipe := fun same => other (by rw [same])
    obtain ⟨settled, run, go⟩ := exists_of_bind_eq_ok go
    have nothing := pending_of_settle run
    simp only [h.settle run]
    cases attached with
    | none =>
      cases go
      exact ⟨_, rfl, .settled (by
        rintro value ⟨⟩
        exact apart rfl)⟩
    | some value =>
      refine ⟨next.withRecipe recipe, ?_, .settled ?_⟩
      · exact fill_withRecipe apart go
      · rw [pending_of_fill go, nothing]
        simp

theorem Told.takeInputs (args : List String) (h : Told recipe draft told)
    (go : args.foldlM Draft.takeInput draft = .ok next) :
    ∃ next', args.foldlM Draft.takeInput told = .ok next' ∧ Told recipe next next' := by
  induction args generalizing draft told with
  | nil =>
    cases go
    exact ⟨told, rfl, h⟩
  | cons arg args ih =>
    rw [List.foldlM_cons] at go ⊢
    obtain ⟨between, run, go⟩ := exists_of_bind_eq_ok go
    obtain ⟨between', run', h'⟩ := h.takeInput run
    rw [run']
    exact ih h' go

section Accepted

variable {version : Bool} {accepted : Accepted} (more : accepted.version = true)

include more

theorem Told.takeLong (h : Told recipe draft told) {body : List Char}
    (go : draft.takeLong ⟨false, version⟩ body = .ok next) :
    ∃ next', told.takeLong accepted body = .ok next' ∧ Told recipe next next' := by
  unfold Draft.takeLong at go ⊢
  dsimp only at go ⊢
  split at go
  · cases go
  · next flag known =>
    obtain ⟨known', other⟩ := flagOfName?_of_known more known
    rw [known']
    dsimp only
    split at go
    · cases go
    · cases go
    · exact h.takeFlag other go

theorem Told.takeShort (h : Told recipe draft told) {letter : Char} {body : List Char}
    (go : draft.takeShort ⟨false, version⟩ letter body = .ok next) :
    ∃ next', told.takeShort accepted letter body = .ok next' ∧ Told recipe next next' := by
  unfold Draft.takeShort at go ⊢
  dsimp only at go ⊢
  split at go
  · cases go
  · next flag known =>
    obtain ⟨known', other⟩ := flagOfLetter?_of_known more known
    rw [known']
    exact h.takeFlag other go

theorem Told.take (h : Told recipe draft told) {arg : String}
    (go : draft.take ⟨false, version⟩ arg = .ok next) :
    ∃ next', told.take accepted arg = .ok next' ∧ Told recipe next next' := by
  unfold Draft.take at go ⊢
  split at go
  · exact h.takeLong more go
  · exact h.takeShort more go
  · exact h.takeWord go

/-- All arguments lead to the same draft, the recipe apart. -/
theorem Told.takeAll (args : List String) (h : Told recipe draft told)
    (go : draft.takeAll ⟨false, version⟩ args = .ok next) :
    told.takeAll accepted args = .ok (next.withRecipe recipe) := by
  induction args generalizing draft told with
  | nil => exact h.settle go
  | cons arg args ih =>
    unfold Draft.takeAll at go ⊢
    split at go
    · next terminator =>
      rw [if_pos terminator]
      obtain ⟨between, run, go⟩ := exists_of_bind_eq_ok go
      obtain ⟨between', run', h'⟩ := h.takeInputs args run
      rw [run']
      exact h'.settle go
    · next other =>
      rw [if_neg other]
      obtain ⟨between, run, go⟩ := exists_of_bind_eq_ok go
      obtain ⟨between', run', h'⟩ := h.take more run
      rw [run']
      exact ih h' go

end Accepted

end Draft

variable {version : Bool} {args : List String} {arguments : Arguments}

/-- The arguments of a tool that takes no recipe. -/
theorem exists_takeAll (asked : parse ⟨false, version⟩ args = .ok arguments) :
    ∃ draft input, Draft.takeAll ⟨false, version⟩ {} args = .ok draft ∧
      draft.input = some input ∧ arguments = {
        recipe := draft.recipe, input, format := draft.format.getD .plain,
        output := draft.output } := by
  obtain ⟨draft, run, asked⟩ := exists_of_bind_eq_ok asked
  dsimp only at asked
  split at asked
  · cases asked
  · next input found =>
    cases asked
    exact ⟨draft, input, run, found, rfl⟩

theorem parse_of_takeAll {accepted : Accepted} {draft : Draft} {input : String}
    (run : Draft.takeAll accepted {} args = .ok draft) (found : draft.input = some input)
    (told : (accepted.recipe && draft.recipe.isNone) = false) :
    parse accepted args = .ok {
      recipe := draft.recipe, input, format := draft.format.getD .plain,
      output := draft.output } := by
  unfold parse
  simp only [run, found, told, bind, Except.bind]
  rfl

/-- What a tool accepts that takes no recipe, it accepts as well if it can tell its version. -/
theorem parse_version (asked : parse ⟨false, version⟩ args = .ok arguments) :
    parse ⟨false, true⟩ args = .ok arguments := by
  obtain ⟨draft, input, run, found, rfl⟩ := exists_takeAll asked
  have start : Draft.Told none {} {} := .settled (by simp)
  have run' : Draft.takeAll ⟨false, true⟩ {} args = .ok draft := start.takeAll rfl args run
  exact parse_of_takeAll run' found rfl

theorem Draft.take_word {draft : Draft} {accepted : Accepted} {word : String}
    (noOption : word.toList.head? ≠ some '-') :
    draft.take accepted word = draft.takeWord word := by
  unfold take
  split
  · next text => exact absurd (by rw [text]; rfl) noOption
  · next text => exact absurd (by rw [text]; rfl) noOption
  · rfl

/-- The recipe may be told before arguments that name none. -/
theorem parse_told (asked : parse ⟨false, version⟩ args = .ok arguments) {name : String}
    (noOption : name.toList.head? ≠ some '-') :
    parse ⟨true, true⟩ ("--recipe" :: name :: args) =
      .ok { arguments with recipe := some name } := by
  obtain ⟨draft, input, run, found, rfl⟩ := exists_takeAll asked
  have noEnd : name ≠ "--" := by
    rintro rfl
    exact noOption rfl
  have run' : Draft.takeAll ⟨true, true⟩ {} ("--recipe" :: name :: args) =
      .ok (draft.withRecipe (some name)) := by
    rw [Draft.takeAll, if_neg (by decide)]
    show Draft.takeAll _ { pending := some (.recipe, none) } (name :: args) = _
    rw [Draft.takeAll, if_neg noEnd, Draft.take_word noOption]
    exact (Draft.Told.pending name).takeAll rfl args run
  exact parse_of_takeAll run' found rfl

end Arguments

/-! ## Runs -/

namespace Tool

/-- The name of the recipe that a tool reads every log with. -/
def fixedRecipe? : Tool → Option String
  | counters => some "counters"
  | operations => some "operations"
  | anyRecipe => none

end Tool

/-- What can be seen of a run: its code and both texts, but no event on the way. -/
def Exit.visible (exit : Exit) : Nat × List Char × String := (exit.code, exit.output, exit.errors)

namespace Tool

theorem visible_finished (earlier : List Event) (run : Run) :
    (finished earlier run).visible = (finished [] run).visible := by
  unfold finished
  cases run.outcome <;> rfl

section Runs

variable {m : Type → Type} [Monad m] [LawfulMonad m] {version : Bool} {args : List String}
  {arguments : Arguments} (asked : Arguments.parse ⟨false, version⟩ args = .ok arguments)

include asked

/-- A tool that is told the name of a built-in recipe looks for no file. -/
theorem run_anyRecipe_builtin {name : String} {recipe : Recipe}
    (builtin : Recipe.builtin? name = some recipe) (noOption : name.toList.head? ≠ some '-')
    (files : FileAccess m) :
    anyRecipe.run files ("--recipe" :: name :: args) = do
      return finished [.builtinRecipe name, .recipeLoaded recipe.name recipe.metrics.length]
        (← Run.perform files arguments recipe) := by
  have told : Arguments.parse anyRecipe.accepted ("--recipe" :: name :: args) =
    .ok { arguments with recipe := some name } := Arguments.parse_told asked noOption
  unfold run
  rw [told]
  dsimp only [Option.getD_some]
  unfold runResolved Recipe.resolve
  rw [builtin]
  simp only [pure_bind]
  rfl

theorem run_fixed {tool : Tool} {name : String} (fixed : tool.fixedRecipe? = some name)
    (files : FileAccess m) :
    Exit.visible <$> tool.run files args =
      Exit.visible <$> anyRecipe.run files ("--recipe" :: name :: args) := by
  have same (recipe : Recipe) (earlier : List Event) :
      (Exit.visible <$> do return finished [] (← Run.perform files arguments recipe)) =
        (Exit.visible <$> do return finished earlier (← Run.perform files arguments recipe)) := by
    simp only [bind_pure_comp, Functor.map_map, visible_finished earlier]
  have accepts : Arguments.parse ⟨false, true⟩ args = .ok arguments :=
    Arguments.parse_version asked
  cases tool with
  | counters =>
    cases fixed
    have builtin : Recipe.builtin? "counters" = some Recipe.counters := rfl
    rw [run_anyRecipe_builtin asked builtin (by decide), ← same]
    unfold run
    rw [show accepted counters = ⟨false, true⟩ from rfl, accepts]
  | operations =>
    cases fixed
    have builtin : Recipe.builtin? "operations" = some Recipe.operations := rfl
    rw [run_anyRecipe_builtin asked builtin (by decide), ← same]
    unfold run
    rw [show accepted operations = ⟨false, true⟩ from rfl, accepts]
  | anyRecipe => cases fixed

end Runs

/-- On arguments that a tool without a recipe accepts, a tool with a built-in recipe ends with the
same code, output and error text as the general tool that is told the name of this recipe before the
same arguments, however files are accessed. In a file tree both leave the same files, whatever files
there were. -/
theorem run_fixed_eq_run_anyRecipe {tool : Tool} {name : String}
    (fixed : tool.fixedRecipe? = some name) {version : Bool} {args : List String}
    {arguments : Arguments} (asked : Arguments.parse ⟨false, version⟩ args = .ok arguments) :
    (∀ (m : Type → Type) [Monad m] [LawfulMonad m] (files : FileAccess m),
      Exit.visible <$> tool.run files args =
        Exit.visible <$> anyRecipe.run files ("--recipe" :: name :: args)) ∧
    ∀ tree : FileTree,
      let (exit, after) := tool.run FileTree.access args tree
      let (exit', after') := anyRecipe.run FileTree.access ("--recipe" :: name :: args) tree
      exit.code = exit'.code ∧ exit.output = exit'.output ∧ exit.errors = exit'.errors ∧
        after = after' := by
  refine ⟨fun m _ _ files => run_fixed asked fixed files, fun tree => ?_⟩
  have same := congrFun (run_fixed asked fixed FileTree.access) tree
  have visible : ((tool.run FileTree.access args tree).1.visible,
      (tool.run FileTree.access args tree).2) =
      ((anyRecipe.run FileTree.access ("--recipe" :: name :: args) tree).1.visible,
        (anyRecipe.run FileTree.access ("--recipe" :: name :: args) tree).2) := same
  simp only [Exit.visible, Prod.mk.injEq] at visible
  obtain ⟨⟨code, output, errors⟩, after⟩ := visible
  exact ⟨code, output, errors, after⟩

/-- A log, and beside it files with the names of the built-in recipes. -/
def namesakesTree : FileTree where
  nodes := [(["ops.log"], .file opsLog), (["counters"], .file (Log.encode "name =".toList)),
    (["operations"], .file (Log.encode "blocks = 2".toList))]

/-- Both tools write the report, although a file has the name of the recipe. -/
theorem run_fixed_eq_run_anyRecipe_namesakes :
    let args := ["-omeans.txt", "--", "ops.log"]
    let (exit, after) := operations.run FileTree.access args namesakesTree
    let (exit', after') :=
      anyRecipe.run FileTree.access ("--recipe" :: "operations" :: args) namesakesTree
    (exit.code = exit'.code ∧ exit.output = exit'.output ∧ exit.errors = exit'.errors ∧
      after = after') ∧
    exit.code = 0 ∧ ∃ summary,
      (Summary.ofOpened Recipe.operations "ops.log" (.ok (.contents opsLog))).2 = .ok summary ∧
      after.read "means.txt" = .ok (.contents (Log.encode (summary.report .plain))) := by
  intro args
  have asked : Arguments.parse operations.accepted args =
    .ok ⟨none, "ops.log", .plain, some "means.txt"⟩ := rfl
  have fixed : operations.fixedRecipe? = some "operations" := rfl
  refine ⟨(run_fixed_eq_run_anyRecipe fixed asked).2 namesakesTree, ?_⟩
  have fromLog : namesakesTree.start "ops.log" = .ok [] :=
    FileTree.start_of_relative _ (by decide) (by decide) (by decide) (by decide +kernel)
  have fromMeans : namesakesTree.start "means.txt" = .ok [] :=
    FileTree.start_of_relative _ (by decide) (by decide) (by decide) (by decide +kernel)
  have reads : namesakesTree.read "ops.log" = .ok (.contents opsLog) := by
    rw [FileTree.read, fromLog]
    rfl
  obtain ⟨place, aim⟩ : ∃ place, namesakesTree.target "means.txt" = .ok place := by
    rw [FileTree.target, fromMeans]
    exact FileTree.exists_of_isOk (by decide +kernel)
  obtain ⟨series, parses⟩ := exists_parse_opsLog
  obtain ⟨summary, summarized, report⟩ := Recipe.exists_report? FileTree.access namesakesTree
    ⟨none, "ops.log", .plain, some "means.txt"⟩ reads parses
  have effect {exit : Exit} {after : FileTree}
      (go : operations.run FileTree.access args namesakesTree = (exit, after)) :=
    (run_effect FileTree.stable_access asked go).of_target report aim
  obtain ⟨success, written⟩ := effect rfl
  exact ⟨of_decide_eq_true success, summary, summarized, written⟩

end Tool

end BenchLog
