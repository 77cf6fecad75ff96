import BenchLog.Proofs.CommandLine.FixedRecipe
import BenchLog.Proofs.Text.Blank

/-!
# Spellings of arguments

Values can be written down in many ways (`Spells`): an option has two names and five forms
(`SpellsOption`), the log stands anywhere or last after `--`, and the order is free. All of them fill the
same slots one after the other (`yields_of_spells`). What an argument leaves pending is settled before
the next one, so a draft is compared after it is settled (`Yields`), and a log is taken only if none was
named before. That the order and the form do not matter is then a fact about values (`parse_spelled`).
-/

namespace BenchLog.Arguments

/-! ## Ways to write values -/

/-- The short and the long name of the option for a slot. There is none for the log. -/
inductive IsOption : Slot → String → String → Prop where
  | recipe : IsOption .recipe "-r" "--recipe"
  | format : IsOption .format "-f" "--format"
  | output : IsOption .output "-o" "--output"

/-- Can the text stand as an argument that is no option? -/
def IsWord (text : String) : Prop := text = "-" ∨ text.toList.head? ≠ some '-'

/-- The arguments give the slot the value, by an option. -/
inductive SpellsOption (slot : Slot) (value : String) : List String → Prop where
  | short {short long : String} (option : IsOption slot short long) (word : IsWord value) :
      SpellsOption slot value [short, value]
  | attached {short long : String} (option : IsOption slot short long) (nonempty : value ≠ "")
      (noSign : value.toList.head? ≠ some '=') : SpellsOption slot value [short ++ value]
  | shortSign {short long : String} (option : IsOption slot short long) :
      SpellsOption slot value [short ++ "=" ++ value]
  | long {short long : String} (option : IsOption slot short long) (word : IsWord value) :
      SpellsOption slot value [long, value]
  | longSign {short long : String} (option : IsOption slot short long) :
      SpellsOption slot value [long ++ "=" ++ value]

/-- The arguments give the slots the values, in this order. -/
inductive Spells : List (Slot × String) → List String → Prop where
  | nothing : Spells [] []
  | option {slot : Slot} {value : String} {words args : List String}
      {values : List (Slot × String)} (spells : SpellsOption slot value words)
      (rest : Spells values args) : Spells ((slot, value) :: values) (words ++ args)
  | input {value : String} {args : List String} {values : List (Slot × String)}
      (word : IsWord value) (rest : Spells values args) :
      Spells ((.input, value) :: values) (value :: args)
  | lastInput (value : String) : Spells [(.input, value)] ["--", value]

/-! ## One option -/

/-- Does the tool know the option for the slot? -/
def Accepted.Takes (accepted : Accepted) (slot : Slot) : Prop :=
  slot = .recipe → accepted.recipe = true

section Options

variable {accepted : Accepted} {slot : Slot} {short long value : String}

theorem IsOption.ne_input (option : IsOption slot short long) : slot ≠ .input := by
  cases option <;> decide

theorem IsOption.letter (option : IsOption slot short long) (takes : accepted.Takes slot) :
    ∃ letter, short.toList = ['-', letter] ∧ letter ≠ '-' ∧
      flagOfLetter? accepted letter = some (.value slot) := by
  cases option with
  | recipe => exact ⟨'r', rfl, by decide, by simp [flagOfLetter?, takes rfl]⟩
  | format => exact ⟨'f', rfl, by decide, rfl⟩
  | output => exact ⟨'o', rfl, by decide, rfl⟩

theorem IsOption.name (option : IsOption slot short long) (takes : accepted.Takes slot) :
    ∃ name, long.toList = '-' :: '-' :: name ∧ name ≠ [] ∧ name.all (· ≠ '=') = true ∧
      flagOfName? accepted name = some (.value slot) := by
  cases option with
  | recipe =>
    refine ⟨"recipe".toList, rfl, by decide, by decide, ?_⟩
    unfold flagOfName?
    rw [if_neg (by decide), if_neg (by decide), if_neg (by decide), takes rfl]
    rfl
  | format => exact ⟨"format".toList, rfl, by decide, by decide, rfl⟩
  | output => exact ⟨"output".toList, rfl, by decide, by decide, rfl⟩

/-- The value that is attached to a letter. -/
def attachedToLetter : List Char → Option String
  | [] => none
  | '=' :: value => some (String.ofList value)
  | value => some (String.ofList value)

theorem attachedToLetter_toList (nonempty : value ≠ "") (noSign : value.toList.head? ≠ some '=') :
    attachedToLetter value.toList = some value := by
  unfold attachedToLetter
  split
  · next text => exact absurd (String.toList_inj.1 text) nonempty
  · next text => exact absurd (by rw [text]; rfl) noSign
  · rw [String.ofList_toList]

section Take

variable (option : IsOption slot short long) (takes : accepted.Takes slot) {word : String}

include option takes

theorem IsOption.take_short {body : List Char} (text : word.toList = short.toList ++ body) :
    word ≠ "--" ∧ ∀ draft : Draft, draft.take accepted word =
      draft.takeFlag (attachedToLetter body) (.value slot) := by
  obtain ⟨letter, letters, noDash, known⟩ := option.letter takes
  rw [letters] at text
  constructor
  · rintro rfl
    cases text
    exact noDash rfl
  · intro draft
    unfold Draft.take
    split
    · next text' =>
      cases text.symm.trans text'
      exact absurd rfl noDash
    · next text' =>
      cases text.symm.trans text'
      unfold Draft.takeShort
      rw [known]
      rfl
    · next other => exact absurd text (other _ _)

theorem IsOption.take_long {rest : List Char} (text : word.toList = long.toList ++ rest)
    (stop : ∀ c ∈ rest.head?, c = '=') :
    word ≠ "--" ∧ ∀ draft : Draft, draft.take accepted word =
      draft.takeFlag (rest.tail?.map String.ofList) (.value slot) := by
  obtain ⟨name, letters, nonempty, noSign, known⟩ := option.name takes
  rw [letters] at text
  constructor
  · rintro rfl
    cases name with
    | nil => exact nonempty rfl
    | cons => cases text
  · intro draft
    obtain ⟨front, back⟩ := span_append (List.all_eq_true.1 noSign) fun c mem =>
      decide_eq_false (not_not.2 (stop c mem))
    have run : draft.take accepted word = draft.takeLong accepted (name ++ rest) := by
      unfold Draft.take
      rw [text]
      rfl
    rw [run]
    unfold Draft.takeLong
    dsimp only
    rw [front, back, known]

end Take

theorem SpellsOption.ne_input {words : List String} (spells : SpellsOption slot value words) :
    slot ≠ .input := by
  cases spells with
  | short option | attached option | shortSign option | long option | longSign option =>
    exact option.ne_input

/-- An option is taken with its value, or its value is the next argument. -/
theorem SpellsOption.take {words : List String} (spells : SpellsOption slot value words)
    (takes : accepted.Takes slot) :
    (∃ option, words = [option, value] ∧ IsWord value ∧ option ≠ "--" ∧
      ∀ draft : Draft, draft.take accepted option = draft.takeFlag none (.value slot)) ∨
    ∃ option, words = [option] ∧ option ≠ "--" ∧
      ∀ draft : Draft, draft.take accepted option = draft.takeFlag (some value) (.value slot) := by
  cases spells with
  | short option word =>
    exact Or.inl ⟨_, rfl, word, option.take_short takes (List.append_nil _).symm⟩
  | long option word =>
    exact Or.inl ⟨_, rfl, word, option.take_long takes (List.append_nil _).symm (by simp)⟩
  | attached option nonempty noSign =>
    refine Or.inr ⟨_, rfl, ?_⟩
    rw [← attachedToLetter_toList nonempty noSign]
    exact option.take_short takes String.toList_append
  | @shortSign short _ option =>
    have text : (short ++ "=" ++ value).toList = short.toList ++ '=' :: value.toList := by simp
    have run := option.take_short takes text
    rw [attachedToLetter, String.ofList_toList] at run
    exact Or.inr ⟨_, rfl, run⟩
  | @longSign _ long option =>
    have text : (long ++ "=" ++ value).toList = long.toList ++ '=' :: value.toList := by simp
    have run := option.take_long takes text (by simp)
    rw [List.tail?_cons, Option.map_some, String.ofList_toList] at run
    exact Or.inr ⟨_, rfl, run⟩

theorem IsWord.ne_end (word : IsWord value) : value ≠ "--" := by
  rintro rfl
  exact word.elim (by decide) fun noDash => noDash rfl

theorem IsWord.take (word : IsWord value) (draft : Draft) :
    draft.take accepted value = draft.takeWord value := by
  rcases word with rfl | noDash
  · rfl
  · exact Draft.take_word noDash

end Options

/-! ## All arguments -/

namespace Draft

variable {accepted : Accepted} {draft next : Draft} {slot : Slot} {value : String}

theorem hasInput_put :
    (draft.put slot value).hasInput = (decide (slot = .input) || draft.hasInput) := by
  cases slot <;> rfl

theorem hasInput_of_fill (go : draft.fill slot (some value) = .ok next) :
    next.hasInput = (decide (slot = .input) || draft.hasInput) := by
  rw [fill_some] at go
  split at go
  · cases go
  split at go
  · cases go
    exact hasInput_put
  · cases go

/-- A log that is pending has been named already. -/
theorem hasInput_of_settle (go : draft.settle = .ok next) : next.hasInput = draft.hasInput := by
  unfold settle at go
  split at go
  · cases go
    rfl
  · next slot value waits =>
    cases value with
    | none => cases go
    | some value =>
      rw [hasInput_of_fill go]
      simp [hasInput, waits, Bool.or_comm]

/-- No value is still to come. -/
def IsReady (draft : Draft) : Prop := ∀ slot, draft.pending ≠ some (slot, none)

theorem isReady_of_pending (nothing : draft.pending = none) : draft.IsReady := by
  simp [IsReady, nothing]

theorem settle_of_pending (nothing : draft.pending = none) : draft.settle = .ok draft := by
  rw [settle, nothing]

/-- The arguments fill the slots with the values, after a draft that has named no log unless it may have
(`named`). -/
def Yields (accepted : Accepted) (named : Bool) (values : List (Slot × String)) (args : List String) :
    Prop :=
  ∀ draft : Draft, draft.IsReady → (named = false → draft.hasInput = false) →
    draft.takeAll accepted args = draft.settle >>= (·.fillAll values)

variable {named : Bool} {values : List (Slot × String)} {words args : List String}

theorem yields_nothing : Yields accepted named [] [] := fun _ _ _ => (bind_pure _).symm

/-- What is pending is filled before all that follows. -/
theorem Yields.pending (rest : Yields accepted named values args) (nothing : draft.pending = none)
    (first : named = false → slot ≠ .input ∧ draft.hasInput = false) :
    takeAll accepted { draft with pending := some (slot, some value) } args =
      draft.fillAll ((slot, value) :: values) := by
  have settled : settle { draft with pending := some (slot, some value) } =
      draft.fill slot (some value) := by
    unfold settle
    dsimp only
    rw [← nothing]
  rw [rest _ (by simp [IsReady]), settled, fillAll, List.foldlM_cons]
  · rfl
  · intro unnamed
    obtain ⟨other, first⟩ := first unnamed
    simp only [hasInput, nothing, Option.any_none, Bool.or_false] at first
    simp [hasInput, first, other]

theorem Yields.option (rest : Yields accepted named values args)
    (spells : SpellsOption slot value words) (takes : accepted.Takes slot) :
    Yields accepted named ((slot, value) :: values) (words ++ args) := by
  have other := spells.ne_input
  intro draft _ first
  rcases spells.take takes with ⟨option, rfl, word, noEnd, run⟩ | ⟨option, rfl, noEnd, run⟩
  · rw [List.cons_append, takeAll, if_neg noEnd, run, takeFlag]
    cases settled : draft.settle with
    | error halt => rfl
    | ok next =>
      have first' (unnamed : named = false) : slot ≠ .input ∧ next.hasInput = false :=
        ⟨other, (hasInput_of_settle settled).trans (first unnamed)⟩
      show takeAll accepted { next with pending := some (slot, none) } (value :: args) =
        next.fillAll ((slot, value) :: values)
      rw [← rest.pending (pending_of_settle settled) first', takeAll, if_neg word.ne_end, word.take]
      rfl
  · rw [List.cons_append, takeAll, if_neg noEnd, run, takeFlag]
    cases settled : draft.settle with
    | error halt => rfl
    | ok next =>
      show next.fill slot (some value) >>= (·.takeAll accepted args) =
        next.fillAll ((slot, value) :: values)
      rw [fillAll, List.foldlM_cons]
      cases filled : next.fill slot (some value) with
      | error halt => rfl
      | ok next' =>
        have nothing : next'.pending = none := by
          rw [pending_of_fill filled, pending_of_settle settled]
        show next'.takeAll accepted args = next'.fillAll values
        rw [rest _ (isReady_of_pending nothing), settle_of_pending nothing]
        · rfl
        · intro unnamed
          rw [hasInput_of_fill filled, decide_eq_false other, hasInput_of_settle settled]
          exact first unnamed

/-- A log is taken if none was named before. -/
theorem Yields.input (rest : Yields accepted true values args) (first : draft.hasInput = false) :
    draft.takeInput value >>= (·.takeAll accepted args) =
      draft.settle >>= (·.fillAll ((.input, value) :: values)) := by
  rw [takeInput, first, if_neg Bool.false_ne_true]
  cases settled : draft.settle with
  | error halt => rfl
  | ok next => exact rest.pending (pending_of_settle settled) nofun

theorem Yields.word (rest : Yields accepted true values args) (word : IsWord value) :
    Yields accepted false ((.input, value) :: values) (value :: args) := by
  intro draft ready first
  rw [← rest.input (first rfl), takeAll, if_neg word.ne_end, word.take, takeWord]
  split
  · next slot waits => exact absurd waits (ready slot)
  · rfl

theorem yields_last : Yields accepted false [(.input, value)] ["--", value] := by
  intro draft _ first
  have rest : Yields accepted true [] [] := yields_nothing
  rw [← rest.input (first rfl), takeAll, if_pos rfl, List.foldlM_cons]
  cases draft.takeInput value <;> rfl

/-- All spellings fill the slots in the order of the values. -/
theorem yields_of_spells (spells : Spells values args)
    (takes : ∀ given ∈ values, accepted.Takes given.1)
    (once : (values.map (·.1)).count .input + named.toNat ≤ 1) :
    Yields accepted named values args := by
  -- What follows a log comes after a draft that has named one, so `named` changes on the way.
  induction spells generalizing named with
  | nothing => exact yields_nothing
  | option spells rest ih =>
    obtain ⟨own, others⟩ := List.forall_mem_cons.1 takes
    rw [List.map_cons, List.count_cons_of_ne spells.ne_input] at once
    exact (ih others once).option spells own
  | input word rest ih =>
    obtain ⟨-, others⟩ := List.forall_mem_cons.1 takes
    rw [List.map_cons, List.count_cons_self] at once
    cases named with
    | true => exact absurd once (by simp)
    | false =>
      have rest : Yields accepted true _ _ := ih others once
      exact rest.word word
  | lastInput value =>
    cases named with
    | true => exact absurd once (by simp)
    | false => exact yields_last

end Draft

/-! ## Requests -/

/-- The values of a request, the format apart. -/
def values (arguments : Arguments) : List (Slot × String) :=
  (.input, arguments.input) ::
    (arguments.recipe.toList.map (.recipe, ·) ++ arguments.output.toList.map (.output, ·))

/-- The values of a request in any order. The plain format may be left out. -/
def ListedBy (arguments : Arguments) (values : List (Slot × String)) : Prop :=
  values.Perm ((.format, arguments.format.word) :: arguments.values) ∨
    arguments.format = .plain ∧ values.Perm arguments.values

section Requests

variable {accepted : Accepted} {arguments : Arguments} {values : List (Slot × String)}
  {args : List String}

theorem takeAll_of_spells (spells : Spells values args)
    (takes : ∀ given ∈ values, accepted.Takes given.1)
    (once : (values.map (·.1)).count .input ≤ 1) :
    Draft.takeAll accepted {} args = Draft.fillAll {} values :=
  (Draft.yields_of_spells spells takes once : Draft.Yields accepted false values args) {}
    (Draft.isReady_of_pending rfl) fun _ => rfl

theorem parse_of_error {halt : Halt} (run : Draft.takeAll accepted {} args = .error halt) :
    parse accepted args = .error halt := by
  unfold parse
  rw [run]
  rfl

theorem mem_values {slot : Slot} {value : String} : (slot, value) ∈ arguments.values ↔
    slot = .input ∧ value = arguments.input ∨ slot = .recipe ∧ arguments.recipe = some value ∨
      slot = .output ∧ arguments.output = some value := by
  simp [Arguments.values, eq_comm, and_comm]

theorem ListedBy.cases_of_mem (listed : arguments.ListedBy values) {given : Slot × String}
    (mem : given ∈ values) :
    given = (.format, arguments.format.word) ∨ given ∈ arguments.values := by
  rcases listed with same | ⟨-, same⟩
  · exact List.mem_cons.1 (same.mem_iff.1 mem)
  · exact Or.inr (same.mem_iff.1 mem)

theorem ListedBy.takes (listed : arguments.ListedBy values)
    (told : arguments.recipe.isSome = accepted.recipe) :
    ∀ given ∈ values, accepted.Takes given.1 := by
  rintro ⟨slot, value⟩ mem rfl
  rw [← told]
  rcases listed.cases_of_mem mem with ⟨⟨⟩⟩ | mem
  rcases mem_values.1 mem with ⟨⟨⟩, -⟩ | ⟨-, recipe⟩ | ⟨⟨⟩, -⟩
  rw [recipe]
  rfl

section Listed

variable (input : arguments.input ≠ "") (output : arguments.output ≠ some "")

include input output

theorem ListedBy.fills (listed : arguments.ListedBy values) : Draft.Fills values where
  possible := by
    rintro ⟨slot, value⟩ mem
    rcases listed.cases_of_mem mem with ⟨⟨⟩⟩ | mem
    · simp [isPossible, Format.ofWord?_word]
    rcases mem_values.1 mem with ⟨rfl, rfl⟩ | ⟨rfl, -⟩ | ⟨rfl, found⟩
    · exact decide_eq_true input
    · rfl
    · refine decide_eq_true ?_
      rintro rfl
      exact output found
  once := by
    have all : (((.format, arguments.format.word) :: arguments.values).map (·.1)).Nodup := by
      rcases arguments with ⟨_ | recipe, input, format, _ | output⟩ <;> simp [Arguments.values]
    rcases listed with same | ⟨-, same⟩
    · exact (same.map _).nodup_iff.2 all
    · exact (same.map _).nodup_iff.2 (List.nodup_cons.1 all).2

/-- What the values of a request fill is the request. -/
theorem ListedBy.fillAll (listed : arguments.ListedBy values) :
    ∃ draft, Draft.fillAll {} values = .ok draft ∧ draft.recipe = arguments.recipe ∧
      draft.input = some arguments.input ∧ draft.format.getD .plain = arguments.format ∧
      draft.output = arguments.output := by
  have fills := listed.fills input output
  rcases listed with same | ⟨plain, same⟩
  · refine ⟨_, Draft.fillAll_of_perm same (fills.perm same.symm), ?_⟩
    rcases arguments with ⟨_ | recipe, input, format, _ | output⟩ <;>
      simp [Arguments.values, Draft.putAll, Draft.put, Format.ofWord?_word]
  · refine ⟨_, Draft.fillAll_of_perm same (fills.perm same.symm), ?_⟩
    rcases arguments with ⟨_ | recipe, input, format, _ | output⟩ <;>
      simp [Arguments.values, Draft.putAll, Draft.put, ← plain]

theorem ListedBy.parse (listed : arguments.ListedBy values)
    (told : arguments.recipe.isSome = accepted.recipe) (spells : Spells values args) :
    parse accepted args = .ok arguments := by
  obtain ⟨draft, filled, recipe', input', format', output'⟩ := listed.fillAll input output
  have once := List.nodup_iff_count_le_one.1 (listed.fills input output).once .input
  rw [← takeAll_of_spells spells (listed.takes told) once] at filled
  have noneMissing : (accepted.recipe && draft.recipe.isNone) = false := by
    rw [recipe', ← told]
    cases arguments.recipe <;> rfl
  rw [parse_of_takeAll filled input' noneMissing, recipe', format', output']

end Listed

/-- A slot that gets two values is a fault, in whatever form and place. -/
theorem parse_of_repeated {slot : Slot} {value again : String} {values' : List (Slot × String)}
    (fills : Draft.Fills values) (takes : ∀ given ∈ values, accepted.Takes given.1)
    (mem : (slot, value) ∈ values) (noInput : slot ≠ .input)
    (same : values'.Perm ((slot, again) :: values)) (spells : Spells values' args) :
    parse accepted args = .error .repeatedOption ∨
      isPossible slot again = false ∧ parse accepted args = .error .invalidValue := by
  have takes' : ∀ given ∈ values', accepted.Takes given.1 := fun given mem' => by
    rcases List.mem_cons.1 (same.mem_iff.1 mem') with rfl | mem'
    · exact takes (slot, value) mem
    · exact takes given mem'
  have once : (values'.map (·.1)).count .input ≤ 1 := by
    rw [(same.map _).count_eq, List.map_cons, List.count_cons_of_ne noInput]
    exact List.nodup_iff_count_le_one.1 fills.once .input
  have twice : ¬(values'.map (·.1)).Nodup := by
    rw [(same.map _).nodup_iff, List.map_cons, List.nodup_cons, not_and_or, not_not]
    exact Or.inl (List.mem_map.2 ⟨_, mem, rfl⟩)
  have run := takeAll_of_spells spells takes' once
  rcases Draft.fillAll_of_repeated (Or.inl twice) with fault | ⟨⟨given, mem', impossible⟩, fault⟩
  · exact Or.inl (parse_of_error (run.trans fault))
  · refine Or.inr ⟨?_, parse_of_error (run.trans fault)⟩
    rcases List.mem_cons.1 (same.mem_iff.1 mem') with rfl | mem'
    · exact impossible
    · exact absurd (fills.possible given mem') (Bool.eq_false_iff.1 impossible)

/-- However the values of a request are written down, a tool reads the request. If any of its options is
written down once more, with whatever value, the tool complains: about the repetition, or about the
value if that is not possible. -/
theorem parse_spelled (told : arguments.recipe.isSome = accepted.recipe) (input : arguments.input ≠ "")
    (output : arguments.output ≠ some "") (listed : arguments.ListedBy values) :
    (∀ args, Spells values args → parse accepted args = .ok arguments) ∧
      ∀ slot value again, (slot, value) ∈ values → slot ≠ .input →
        ∀ values', values'.Perm ((slot, again) :: values) → ∀ args, Spells values' args →
          parse accepted args = .error .repeatedOption ∨
            isPossible slot again = false ∧ parse accepted args = .error .invalidValue :=
  ⟨fun _ spells => listed.parse input output told spells,
    fun _ _ _ mem noInput _ same _ spells =>
      parse_of_repeated (listed.fills input output) (listed.takes told) mem noInput same spells⟩

end Requests

/-- A request with values that look like options. -/
def dashes : Arguments where
  recipe := some "-"
  input := "--"
  format := .jsonPretty
  output := some "-x"

/-- The request in three forms and after `--`, and once more with a second output. -/
theorem parse_spelled_dashes :
    parse ⟨true, true⟩ ["-o=-x", "--format", "json-pretty", "-r", "-", "--", "--"] = .ok dashes ∧
      parse ⟨true, true⟩ ["-o=-x", "--format", "json-pretty", "-r", "-", "-oy", "--", "--"] =
        .error .repeatedOption := by
  have listed : dashes.ListedBy
      [(.output, "-x"), (.format, "json-pretty"), (.recipe, "-"), (.input, "--")] :=
    Or.inl (by decide)
  have told : dashes.recipe.isSome = Accepted.recipe ⟨true, true⟩ := rfl
  obtain ⟨reads, repeated⟩ := parse_spelled told (by decide) (by decide) listed
  have apart : IsWord "json-pretty" := Or.inr (by decide)
  constructor
  · refine reads _ ?_
    exact .option (.shortSign .output) (.option (.long .format apart)
      (.option (.short .recipe (Or.inl rfl)) (.lastInput _)))
  · have spells : Spells
        [(.output, "-x"), (.format, "json-pretty"), (.recipe, "-"), (.output, "y"), (.input, "--")]
        ["-o=-x", "--format", "json-pretty", "-r", "-", "-oy", "--", "--"] :=
      .option (.shortSign .output) (.option (.long .format apart)
        (.option (.short .recipe (Or.inl rfl))
          (.option (.attached .output (by decide) (by decide)) (.lastInput _))))
    have fault := repeated .output "-x" "y" (by decide) (by decide) _ (by decide) _ spells
    exact fault.resolve_right fun ⟨impossible, _⟩ => absurd impossible (by decide)

end BenchLog.Arguments
