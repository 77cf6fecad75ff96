import BenchLog.CommandLine.Tool
import BenchLog.Proofs.Files.Tree
import BenchLog.Proofs.Summary.Complete

/-!
# All or nothing

What a run does to files is said once (`Effect`): it shows the report, or writes it to one file, or
fails, and then it neither shows nor changes anything. Every step of a run that can fail comes before
the only one that writes (`Run.deliver_effect`), so this holds of delivering, of whole runs
(`Run.perform_effect`), and of the tools on all arguments that ask for a run (`Tool.run_effect`,
`run_all_or_nothing`).

Of the files nothing is used but that reading changes nothing, and neither does writing that fails
(`FileAccess.Stable`). In a file tree, what is written is the contents of one file, and all else
stays (`FileTree.Replaced`).
-/

namespace BenchLog

open FileTree

variable {σ : Type}

/-- The report on the log that the arguments name, if the log can be summarized. -/
def Recipe.report? (recipe : Recipe) (files : FileAccess (StateM σ)) (state : σ)
    (arguments : Arguments) : Option (List Char) :=
  let opened := (files.read arguments.input state).1
  (Summary.ofOpened recipe arguments.input opened).2.toOption.map (Summary.report arguments.format)

/-- A log that can be parsed has a report. -/
theorem Recipe.exists_report? {recipe : Recipe} {log : Log} {series : List Series}
    (files : FileAccess (StateM σ)) (state : σ) (arguments : Arguments)
    (reads : (files.read arguments.input state).1 = .ok (.contents log))
    (run : (recipe.parse log).outcome = .ok series) :
    ∃ summary, (Summary.ofOpened recipe arguments.input (.ok (.contents log))).2 = .ok summary ∧
      recipe.report? files state arguments = some (summary.report arguments.format) := by
  obtain ⟨summary, summarized⟩ := exists_ofOpened arguments.input run
  refine ⟨summary, summarized, ?_⟩
  rw [report?, reads, summarized]
  rfl

namespace Tool

/-- The recipe that a run reads the log with, if it finds one. -/
def recipe (tool : Tool) (files : FileAccess (StateM σ)) (state : σ) (arguments : Arguments) :
    Except Failure Recipe :=
  match tool with
  | counters => .ok Recipe.counters
  | operations => .ok Recipe.operations
  | anyRecipe => (Recipe.resolve files (arguments.recipe.getD "") state).1.2

/-- The report that a run has to deliver, if nothing fails before. -/
def report? (tool : Tool) (files : FileAccess (StateM σ)) (state : σ) (arguments : Arguments) :
    Option (List Char) :=
  (tool.recipe files state arguments).toOption.bind fun recipe =>
    recipe.report? files state arguments

end Tool

/-- What a run can do that has to deliver a report, if there is one: whether it succeeds, what it
shows, and the state of the files after it. -/
inductive Effect (files : FileAccess (StateM σ)) (state : σ) (output : Option String)
    (report : Option (List Char)) : Bool → List Char → σ → Prop where
  | shown {text : List Char} : output = none → report = some text →
      Effect files state output report true text state
  | written {path : String} {text : List Char} {after : σ} : output = some path →
      report = some text → files.write path (Log.encode text) state = (.ok (), after) →
      Effect files state output report true [] after
  | failed : (report = none ∨ ∃ path text error, output = some path ∧ report = some text ∧
      (files.write path (Log.encode text) state).1 = .error error) →
      Effect files state output report false [] state

/-- In a tree a report that can be written to a file is, and is what the file holds. -/
theorem Effect.of_target {tree after : FileTree} {path : String} {place : List String}
    {report : Option (List Char)} {text output : List Char} {success : Bool}
    (effect : Effect access tree (some path) report success output after)
    (some : report = some text) (aim : tree.target path = .ok place) :
    success = true ∧ after.read path = .ok (.contents (Log.encode text)) := by
  cases effect with
  | shown none => cases none
  | written named report' writes =>
    cases named
    rw [some, Option.some.injEq] at report'
    rw [← report'] at writes
    exact ⟨rfl, (replaced_of_write writes).read⟩
  | failed reason =>
    rcases reason with none | ⟨path', text', error, named, -, missed⟩
    · rw [some] at none
      cases none
    · cases named
      rw [access_write_of_ok aim] at missed
      cases missed

theorem Failure.code_ne_zero (failure : Failure) : failure.code ≠ 0 := by
  unfold code
  split <;> decide

section Runs

variable {files : FileAccess (StateM σ)} {state after : σ} {arguments : Arguments}

namespace Tool

/-- The code of a finished run is 0 if the run succeeded. -/
theorem finished_code (earlier : List Event) (run : Run) :
    decide ((finished earlier run).code = 0) = run.outcome.isOk := by
  unfold finished
  cases run.outcome with
  | ok => rfl
  | error failure => exact decide_eq_false failure.code_ne_zero

theorem finished_output (earlier : List Event) (run : Run) :
    (finished earlier run).output = run.output := by
  unfold finished
  cases run.outcome <;> rfl

/-- A tool whose arguments ask for no run changes nothing. -/
theorem run_halted {tool : Tool} {args : List String} {halt : Arguments.Halt}
    (asked : Arguments.parse tool.accepted args = .error halt) :
    tool.run files args state = (tool.halted halt, state) := by
  unfold run
  rw [asked]
  rfl

theorem halted_failed {tool : Tool} {halt : Arguments.Halt} (noHelp : halt ≠ .help)
    (noVersion : halt ≠ .version) :
    (tool.halted halt).code ≠ 0 ∧ (tool.halted halt).output = [] := by
  cases halt <;> first | contradiction | exact ⟨Nat.succ_ne_zero 1, rfl⟩

end Tool

variable (stable : files.Stable)

include stable

theorem FileAccess.Stable.exists_read (path : String) (state : σ) :
    ∃ opened, files.read path state = (opened, state) :=
  ⟨_, Prod.ext rfl (stable.read path state)⟩

theorem Run.deliver_effect {run : Run} {events : List Event} {report : List Char}
    (go : Run.deliver files arguments events report state = (run, after)) :
    Effect files state arguments.output (some report) run.outcome.isOk run.output after := by
  unfold Run.deliver at go
  cases out : arguments.output with
  | none =>
    rw [out] at go
    cases go
    exact .shown rfl rfl
  | some path =>
    rw [out] at go
    cases writes : files.write path (Log.encode report) state with
    | mk result after' =>
      simp only [bind, StateT.bind, writes] at go
      cases result with
      | ok =>
        cases go
        exact .written rfl rfl writes
      | error error =>
        have missed : (files.write path (Log.encode report) state).1 = .error error := by rw [writes]
        have unchanged := stable.write path _ state error missed
        rw [writes] at unchanged
        cases unchanged
        cases go
        exact .failed (Or.inr ⟨path, report, error, rfl, rfl, missed⟩)

theorem Run.perform_effect {recipe : Recipe} {run : Run}
    (go : Run.perform files arguments recipe state = (run, after)) :
    Effect files state arguments.output (recipe.report? files state arguments) run.outcome.isOk
      run.output after := by
  obtain ⟨opened, reads⟩ := stable.exists_read arguments.input state
  unfold Run.perform at go
  simp only [bind, StateT.bind, reads] at go
  unfold Recipe.report?
  rw [reads]
  dsimp only
  cases summarized : (Summary.ofOpened recipe arguments.input opened).2 with
  | ok summary =>
    rw [summarized] at go
    exact deliver_effect stable go
  | error error =>
    rw [summarized] at go
    cases go
    exact .failed (Or.inl rfl)

/-- Finding a recipe changes nothing. -/
theorem Recipe.resolve_unchanged (name : String) (state : σ) :
    (Recipe.resolve files name state).2 = state := by
  unfold Recipe.resolve
  cases Recipe.builtin? name with
  | some recipe => rfl
  | none => exact stable.read name state

namespace Tool

theorem finished_effect {recipe : Recipe} {earlier : List Event} {exit : Exit}
    (go : (return finished earlier (← Run.perform files arguments recipe) : StateM σ Exit)
      state = (exit, after)) :
    Effect files state arguments.output (recipe.report? files state arguments)
      (decide (exit.code = 0)) exit.output after := by
  cases performed : Run.perform files arguments recipe state with
  | mk run after' =>
    simp only [bind, StateT.bind, performed] at go
    cases go
    rw [finished_code, finished_output]
    exact Run.perform_effect stable performed

theorem runResolved_effect {exit : Exit}
    (go : runResolved files arguments (arguments.recipe.getD "") state = (exit, after)) :
    Effect files state arguments.output (anyRecipe.report? files state arguments)
      (decide (exit.code = 0)) exit.output after := by
  have unchanged := Recipe.resolve_unchanged stable (arguments.recipe.getD "") state
  unfold runResolved at go
  unfold report? recipe
  cases resolved : Recipe.resolve files (arguments.recipe.getD "") state with
  | mk found state' =>
    obtain ⟨events, found⟩ := found
    rw [resolved] at unchanged
    cases unchanged
    simp only [bind, StateT.bind, resolved] at go
    cases found with
    | error failure =>
      cases go
      rw [decide_eq_false failure.code_ne_zero]
      exact .failed (Or.inl rfl)
    | ok recipe => exact finished_effect stable go

/-- What a tool does on arguments that ask for a run. -/
theorem run_effect {tool : Tool} {args : List String} {exit : Exit}
    (asked : Arguments.parse tool.accepted args = .ok arguments)
    (go : tool.run files args state = (exit, after)) :
    Effect files state arguments.output (tool.report? files state arguments)
      (decide (exit.code = 0)) exit.output after := by
  unfold run at go
  rw [asked] at go
  cases tool with
  | counters => exact finished_effect stable go
  | operations => exact finished_effect stable go
  | anyRecipe => exact runResolved_effect stable go

end Tool

end Runs

/-! ## Exactly one of three -/

namespace Tool

section Outcomes

variable (tool : Tool) (files : FileAccess (StateM σ)) (args : List String) (state : σ) (exit : Exit)
  (after : σ)

/-- The run showed the report and wrote nothing. -/
structure Shown : Prop where
  code : exit.code = 0
  report : ∃ arguments, Arguments.parse tool.accepted args = .ok arguments ∧
    arguments.output = none ∧ tool.report? files state arguments = some exit.output
  unchanged : after = state

/-- The run wrote the report, and nothing else, to the file that its arguments name, and showed
nothing. -/
structure Written : Prop where
  code : exit.code = 0
  silent : exit.output = []
  report : ∃ arguments path text, Arguments.parse tool.accepted args = .ok arguments ∧
    arguments.output = some path ∧ tool.report? files state arguments = some text ∧
    files.write path (Log.encode text) state = (.ok (), after)

/-- The run showed and wrote nothing, since there is no report or the file that its arguments name
cannot be written. -/
structure Failed : Prop where
  code : exit.code ≠ 0
  silent : exit.output = []
  unchanged : after = state
  reason : ∀ arguments text, Arguments.parse tool.accepted args = .ok arguments →
    tool.report? files state arguments = some text →
    ∃ path error, arguments.output = some path ∧
      (files.write path (Log.encode text) state).1 = .error error

/-- The run did exactly one of the three. -/
def AllOrNothing : Prop :=
  let shown := tool.Shown files args state exit after
  let written := tool.Written files args state exit after
  let failed := tool.Failed files args state exit after
  shown ∧ ¬ written ∧ ¬ failed ∨ ¬ shown ∧ written ∧ ¬ failed ∨ ¬ shown ∧ ¬ written ∧ failed

end Outcomes

variable {tool : Tool} {files : FileAccess (StateM σ)} {args : List String} {state after : σ}
  {exit : Exit}

theorem Shown.not_written (shown : tool.Shown files args state exit after) :
    ¬ tool.Written files args state exit after := by
  intro written
  obtain ⟨arguments, asked, none, -⟩ := shown.report
  obtain ⟨arguments', path, -, asked', some', -⟩ := written.report
  rw [asked, Except.ok.injEq] at asked'
  rw [← asked', none] at some'
  cases some'

theorem shown_or_written_or_failed (stable : files.Stable)
    (noHelp : Arguments.parse tool.accepted args ≠ .error .help)
    (noVersion : Arguments.parse tool.accepted args ≠ .error .version)
    (go : tool.run files args state = (exit, after)) :
    tool.Shown files args state exit after ∨ tool.Written files args state exit after ∨
      tool.Failed files args state exit after := by
  cases asked : Arguments.parse tool.accepted args with
  | error halt =>
    rw [run_halted asked] at go
    cases go
    rw [asked] at noHelp noVersion
    obtain ⟨code, silent⟩ := @halted_failed tool halt (fun same => noHelp (congrArg _ same))
      (fun same => noVersion (congrArg _ same))
    refine Or.inr (Or.inr ⟨code, silent, rfl, fun arguments text asked' => ?_⟩)
    rw [asked] at asked'
    cases asked'
  | ok arguments =>
    have effect := run_effect stable asked go
    generalize code : decide (exit.code = 0) = success at effect
    generalize shows : exit.output = output at effect
    cases effect with
    | shown none report =>
      exact Or.inl ⟨of_decide_eq_true code, ⟨arguments, asked, none, by rw [report, shows]⟩, rfl⟩
    | written some' report writes =>
      exact Or.inr (Or.inl ⟨of_decide_eq_true code, shows, arguments, _, _, asked, some', report,
        writes⟩)
    | failed reason =>
      refine Or.inr (Or.inr ⟨of_decide_eq_false code, shows, rfl, fun arguments' text asked' => ?_⟩)
      rw [asked, Except.ok.injEq] at asked'
      subst asked'
      intro report
      rcases reason with none | ⟨path, text', error, named, report', missed⟩
      · rw [none] at report
        cases report
      · rw [report, Option.some.injEq] at report'
        exact ⟨path, error, named, report' ▸ missed⟩

theorem allOrNothing (stable : files.Stable)
    (noHelp : Arguments.parse tool.accepted args ≠ .error .help)
    (noVersion : Arguments.parse tool.accepted args ≠ .error .version)
    (go : tool.run files args state = (exit, after)) :
    tool.AllOrNothing files args state exit after := by
  rcases shown_or_written_or_failed stable noHelp noVersion go with h | h | h
  · exact Or.inl ⟨h, h.not_written, fun failed => failed.code h.code⟩
  · exact Or.inr (Or.inl ⟨fun shown => shown.not_written h, h, fun failed => failed.code h.code⟩)
  · exact Or.inr (Or.inr ⟨fun shown => h.code shown.code, fun written => h.code written.code, h⟩)

end Tool

/-- A run does exactly one of three things: it shows the report and changes no file; or it shows
nothing and writes the report to the one file that its arguments name; or it fails, and then it shows
nothing and changes no file. That is so of all files that neither reading changes nor writing that
fails. In a file tree, what a run has written is what the file holds after it, and all other files
are as before. -/
theorem run_all_or_nothing (tool : Tool) (args : List String)
    (noHelp : Arguments.parse tool.accepted args ≠ .error .help)
    (noVersion : Arguments.parse tool.accepted args ≠ .error .version) :
    (∀ (σ : Type) (files : FileAccess (StateM σ)), files.Stable →
      ∀ (state after : σ) (exit : Exit), tool.run files args state = (exit, after) →
        tool.AllOrNothing files args state exit after) ∧
    ∀ (tree after : FileTree) (exit : Exit), tool.run access args tree = (exit, after) →
      tool.AllOrNothing access args tree exit after ∧
      (tool.Written access args tree exit after → ∃ arguments path text,
        Arguments.parse tool.accepted args = .ok arguments ∧ arguments.output = some path ∧
        tool.report? access tree arguments = some text ∧
        tree.Replaced path (Log.encode text) after) := by
  constructor
  · intro σ files stable state after exit go
    exact Tool.allOrNothing stable noHelp noVersion go
  · intro tree after exit go
    refine ⟨Tool.allOrNothing stable_access noHelp noVersion go, fun written => ?_⟩
    obtain ⟨arguments, path, text, asked, named, report, writes⟩ := written.report
    exact ⟨arguments, path, text, asked, named, report, replaced_of_write writes⟩

/-- Ten blocks of operations. -/
def opsLog : Log := Log.encode (List.replicate 10 "250 \n7,5 \n\n".toList).flatten

theorem exists_parse_opsLog : ∃ series, (Recipe.operations.parse opsLog).outcome = .ok series :=
  exists_of_isOk (by decide +kernel)

/-- A log beside the working directory, and in the root the report of an earlier run. -/
def opsTree : FileTree where
  nodes := [(["runs"], .directory), (["logs"], .directory), (["logs", "ops.log"], .file opsLog),
    (["means.txt"], .file (Log.encode "old".toList))]
  home := ["runs"]

/-- The report of ten blocks replaces that of an earlier run. -/
theorem run_all_or_nothing_ops :
    let args := ["-o", "/means.txt", "../logs/ops.log"]
    let run := Tool.operations.run access args opsTree
    run.1.code = 0 ∧ run.1.output = [] ∧ ∃ summary,
      (Summary.ofOpened Recipe.operations "../logs/ops.log" (.ok (.contents opsLog))).2 =
        .ok summary ∧
      opsTree.Replaced "/means.txt" (Log.encode (summary.report .plain)) run.2 := by
  intro args run
  have asked : Arguments.parse (Tool.accepted .operations) args =
    .ok ⟨none, "../logs/ops.log", .plain, some "/means.txt"⟩ := rfl
  have fromHome : opsTree.start "../logs/ops.log" = .ok ["runs"] :=
    start_of_relative opsTree (by decide) (by decide) (by decide) (by decide +kernel)
  have fromRoot : opsTree.start "/means.txt" = .ok [] := by
    rw [start_eq opsTree (by decide) (by decide) (by decide), if_pos (by decide +kernel)]
  obtain ⟨place, aim⟩ : ∃ place, opsTree.target "/means.txt" = .ok place := by
    rw [target, fromRoot]
    exact exists_of_isOk (by decide +kernel)
  have reads : opsTree.read "../logs/ops.log" = .ok (.contents opsLog) := by
    rw [FileTree.read, fromHome]
    rfl
  obtain ⟨series, parses⟩ := exists_parse_opsLog
  obtain ⟨summary, summarized, report⟩ :=
    Recipe.exists_report? access opsTree ⟨none, _, .plain, some "/means.txt"⟩ reads parses
  obtain ⟨one, replaced⟩ := (run_all_or_nothing .operations args (by rw [asked]; nofun)
    (by rw [asked]; nofun)).2 opsTree run.2 run.1 rfl
  rcases one with ⟨shown, -⟩ | ⟨-, written, -⟩ | ⟨-, -, failed⟩
  · obtain ⟨arguments, asked', none, -⟩ := shown.report
    rw [asked, Except.ok.injEq] at asked'
    subst asked'
    cases none
  · obtain ⟨arguments, path, text, asked', named, report', replaced⟩ := replaced written
    rw [asked, Except.ok.injEq] at asked'
    subst asked'
    cases named
    obtain rfl := Option.some.inj (report.symm.trans report')
    exact ⟨written.code, written.silent, summary, summarized, replaced⟩
  · obtain ⟨path, error, named, missed⟩ := failed.reason _ _ asked report
    cases named
    rw [access_write_of_ok aim] at missed
    cases missed

end BenchLog
