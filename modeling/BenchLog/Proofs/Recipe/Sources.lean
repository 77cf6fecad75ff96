import BenchLog.CommandLine.Run
import BenchLog.Proofs.Files.Tree
import BenchLog.Proofs.Log.Layout
import BenchLog.Proofs.Recipe.Validity

/-!
# Recipes that are handed out

A recipe is built in or read from a text, and only one that can be used comes out of a text, whatever was
left out there (`valid_of_ofText`). What a file holds and what a name stands for is one of the two. So
every recipe that is handed out can be used (`HandedOut.valid`), however files are accessed (`exists_load`,
`exists_resolve`), and no log is refused because of it. Of a recipe that cannot be used the first fault is
told (`validate_exact`).
-/

namespace BenchLog.Recipe

variable {recipe : Recipe}

theorem valid_of_builtin? {name : String} (found : builtin? name = some recipe) :
    recipe.validate = .ok () := by
  unfold builtin? at found
  split at found
  · cases found
    rfl
  · split at found
    · cases found
      rfl
    · cases found

theorem valid_of_ofText {text : List Char} (read : ofText text = .ok recipe) :
    recipe.validate = .ok () := by
  unfold ofText at read
  split at read
  · cases read
  · next decoded _ =>
    split at read
    · next valid =>
      cases read
      exact valid
    · cases read

theorem valid_of_ofOpened {path : String} {opened : Except FileError Opened}
    (loaded : ofOpened path opened = .ok recipe) : recipe.validate = .ok () := by
  unfold ofOpened at loaded
  split at loaded
  · cases loaded
  · next text _ =>
    cases read : ofText text with
    | error error =>
      rw [read] at loaded
      cases loaded
    | ok decoded =>
      rw [read] at loaded
      cases loaded
      exact valid_of_ofText read

/-- The recipes that are handed out: those built in, and those of texts, of files and of names. -/
inductive HandedOut (recipe : Recipe) : Prop
  | builtin {name : String} (found : builtin? name = some recipe)
  | text {text : List Char} (read : ofText text = .ok recipe)
  | file {tree : FileTree} {path : String}
    (loaded : (load FileTree.access path tree).1 = .ok recipe)
  | name {tree : FileTree} {name : String}
    (resolved : (resolve FileTree.access name tree).1.2 = .ok recipe)

theorem HandedOut.valid (handed : HandedOut recipe) : recipe.validate = .ok () := by
  cases handed with
  | builtin found => exact valid_of_builtin? found
  | text read => exact valid_of_ofText read
  | file loaded => exact valid_of_ofOpened loaded
  | name resolved =>
    unfold resolve at resolved
    cases found : builtin? _ with
    | some known =>
      rw [found] at resolved
      cases resolved
      exact valid_of_builtin? found
    | none =>
      rw [found] at resolved
      exact valid_of_ofOpened resolved

/-! ## However files are accessed -/

/-- What comes of looking for a recipe: one that can be used, if any. -/
structure Finding where
  found : Except Failure Recipe
  valid : ∀ recipe, found = .ok recipe → recipe.validate = .ok ()

section Access

variable {m : Type → Type} [Monad m] [LawfulMonad m] (files : FileAccess m)

/-- Loading gives a recipe that can be used, or fails. -/
theorem exists_load (path : String) :
    ∃ finding : m Finding, Finding.found <$> finding = load files path := by
  refine ⟨(fun opened => ⟨ofOpened path opened, fun _ => valid_of_ofOpened⟩) <$> files.read path, ?_⟩
  rw [load, bind_pure_comp, Functor.map_map]

/-- What a name stands for is a recipe that can be used, or nothing. -/
theorem exists_resolve (name : String) :
    ∃ finding : m Finding, Finding.found <$> finding = Prod.snd <$> resolve files name := by
  unfold resolve
  cases found : builtin? name with
  | some known =>
    refine ⟨pure ⟨.ok known, fun _ same => ?_⟩, by simp only [map_pure]⟩
    cases same
    exact valid_of_builtin? found
  | none =>
    obtain ⟨finding, loads⟩ := exists_load files name
    refine ⟨finding, ?_⟩
    simp only [bind_pure_comp, Functor.map_map, loads, id_map']

end Access

/-- A recipe can be used exactly if it has a metric, at least three blocks, and no two metrics of one name;
else the first of these that fails is told, with the first name that stands further up already. Every recipe
that is handed out can be used, and so no log is refused because of it. The same is so of the files of any
other access than that to a tree. -/
theorem validate_exact :
    (∀ recipe : Recipe, recipe.validate = .ok () ↔
      recipe.metrics ≠ [] ∧ 3 ≤ recipe.blocks ∧ (recipe.metrics.map (·.name)).Nodup) ∧
    (∀ (recipe : Recipe) (fault : Fault), recipe.validate = .error fault ↔ fault.IsFirstOf recipe) ∧
    (∀ recipe : Recipe, HandedOut recipe →
      (recipe.metrics ≠ [] ∧ 3 ≤ recipe.blocks ∧ (recipe.metrics.map (·.name)).Nodup) ∧
      ∀ (log : Log) (fault : Fault),
        (recipe.read log).outcome ≠ .error (.unusableRecipe fault) ∧
        (recipe.parse log).outcome ≠ .error (.unusableRecipe fault)) ∧
    ∀ (m : Type → Type) [Monad m] [LawfulMonad m] (files : FileAccess m) (name : String),
      (∃ finding : m Finding, Finding.found <$> finding = load files name) ∧
      ∃ finding : m Finding, Finding.found <$> finding = Prod.snd <$> resolve files name := by
  refine ⟨fun recipe => validate_eq_ok_iff, fun recipe fault => validate_eq_error_iff,
    fun recipe handed => ⟨validate_eq_ok_iff.1 handed.valid, fun log fault => ?_⟩,
    fun m _ _ files name => ⟨exists_load files name, exists_resolve files name⟩⟩
  have reads : (recipe.read log).outcome ≠ .error (.unusableRecipe fault) := by
    intro failed
    cases isOfLine_of_outcome_eq_error handed.valid failed
  refine ⟨reads, fun failed => ?_⟩
  by_cases room : HasRoom recipe.blocks
  · rw [parse_eq_read room] at failed
    exact reads failed
  · rw [parse_of_full handed.valid room] at failed
    cases failed

/-- The file of a recipe with one metric, of which nothing but the name is said. -/
def bareFile : Log := Log.encode "name = \"lap\"\nmetrics = [\x7bname = \"time\"\x7d]\n".toList

def bareTree : FileTree where
  nodes := [(["lap.toml"], .file bareFile)]

/-- A recipe that leaves out the number of its blocks can be used. -/
theorem validate_exact_bare :
    ∃ recipe, (resolve FileTree.access "lap.toml" bareTree).1.2 = .ok recipe ∧
      recipe.metrics ≠ [] ∧ 3 ≤ recipe.blocks ∧ (recipe.metrics.map (·.name)).Nodup := by
  have begins : bareTree.start "lap.toml" = .ok [] :=
    FileTree.start_of_relative _ (by decide) (by decide) (by decide) (by decide +kernel)
  have opened : bareTree.read "lap.toml" = .ok (.contents bareFile) := by
    rw [FileTree.read, begins]
    rfl
  have found : (resolve FileTree.access "lap.toml" bareTree).1.2 =
    ofOpened "lap.toml" (bareTree.read "lap.toml") := rfl
  obtain ⟨recipe, readable⟩ : ∃ recipe,
      ofOpened "lap.toml" (.ok (.contents bareFile)) = .ok recipe :=
    FileTree.exists_of_isOk (by decide +kernel)
  rw [opened, readable] at found
  exact ⟨recipe, found, (validate_exact.2.2.1 recipe (.name found)).1⟩

end BenchLog.Recipe
