import BenchLog.Report.Format

/-!
# Arguments

The tools take one log and a few options. An option has a short and a long name, and its value
either follows as an argument of its own or is attached: `-f json`, `-fjson`, `-f=json`,
`--format json`, `--format=json`. After `--` no argument is an option.

`Arguments.parse` reads the arguments from left to right. An argument that needs a value or got
one is `pending`: it is settled only when the next option or the log comes, or at the end, and an
argument that is unknown is reported before the fault of one that is pending.

Arguments are texts. A system may hand over paths that are not, as bytes that are not valid UTF-8;
nothing is said here of these.
-/

namespace BenchLog

structure Arguments where
  /-- The recipe's name or path, for tools that take one. -/
  recipe : Option String := none
  /-- The path of the log. -/
  input : String
  format : Format := .plain
  /-- The path of the file that the report goes to. -/
  output : Option String := none
  deriving DecidableEq, Repr

namespace Arguments

/-- Which options a tool takes besides format, output and help. -/
structure Accepted where
  recipe : Bool
  version : Bool
  deriving DecidableEq, Repr

/-- Why arguments ask for no run. -/
inductive Halt where
  | help
  | version
  | unknownArgument
  | repeatedOption
  /-- A value is missing, empty or none of those possible. -/
  | invalidValue
  /-- A value is attached to an option that takes none. -/
  | unneededValue
  | missingArgument
  deriving DecidableEq, Repr

/-- What a value is for. -/
inductive Slot where
  | recipe
  | input
  | format
  | output
  deriving DecidableEq, Repr

/-- What an option's name stands for. -/
inductive Flag where
  | value (slot : Slot)
  | help
  | version
  deriving DecidableEq, Repr

def flagOfLetter? (accepted : Accepted) (letter : Char) : Option Flag :=
  if letter = 'f' then some (.value .format)
  else if letter = 'o' then some (.value .output)
  else if letter = 'h' then some .help
  else if letter = 'r' && accepted.recipe then some (.value .recipe)
  else if letter = 'V' && accepted.version then some .version
  else none

def flagOfName? (accepted : Accepted) (name : List Char) : Option Flag :=
  if name = "format".toList then some (.value .format)
  else if name = "output".toList then some (.value .output)
  else if name = "help".toList then some .help
  else if name = "recipe".toList && accepted.recipe then some (.value .recipe)
  else if name = "version".toList && accepted.version then some .version
  else none

/-- What has been read so far. -/
structure Draft where
  recipe : Option String := none
  input : Option String := none
  format : Option Format := none
  output : Option String := none
  /-- A value that is not settled yet: what it is for, and the value, unless it is still to
  come. -/
  pending : Option (Slot × Option String) := none
  deriving DecidableEq, Repr

namespace Draft

/-- Has the slot been filled? -/
def isFilled (draft : Draft) : Slot → Bool
  | .recipe => draft.recipe.isSome
  | .input => draft.input.isSome
  | .format => draft.format.isSome
  | .output => draft.output.isSome

/-- Fills a slot. Of several faults the first counts: no value, a repetition, a value that is not
possible. -/
def fill (draft : Draft) (slot : Slot) : Option String → Except Halt Draft
  | none => .error .invalidValue
  | some value =>
    if draft.isFilled slot then .error .repeatedOption
    else match slot with
      | .recipe => .ok { draft with recipe := some value }
      | .input =>
        if value = "" then .error .invalidValue
        else .ok { draft with input := some value }
      | .output =>
        if value = "" then .error .invalidValue
        else .ok { draft with output := some value }
      | .format =>
        match Format.ofWord? value with
        | some format => .ok { draft with format := some format }
        | none => .error .invalidValue

/-- Settles what is pending. -/
def settle (draft : Draft) : Except Halt Draft :=
  match draft.pending with
  | none => .ok draft
  | some (slot, value) => fill { draft with pending := none } slot value

/-- Has the log been named? -/
def hasInput (draft : Draft) : Bool :=
  draft.input.isSome || draft.pending.any (·.1 = .input)

/-- Takes an argument that is no option and no value of one. -/
def takeInput (draft : Draft) (arg : String) : Except Halt Draft :=
  if draft.hasInput then .error .unknownArgument
  else do return { ← draft.settle with pending := some (.input, some arg) }

def takeWord (draft : Draft) (arg : String) : Except Halt Draft :=
  match draft.pending with
  | some (slot, none) => .ok { draft with pending := some (slot, some arg) }
  | _ => draft.takeInput arg

/-- Takes an option, with the value attached to it. -/
def takeFlag (draft : Draft) (attached : Option String) : Flag → Except Halt Draft
  | .help => do
    let _ ← draft.settle
    .error .help
  | .version => do
    let _ ← draft.settle
    .error .version
  | .value slot => do
    let draft ← draft.settle
    match attached with
    | none => return { draft with pending := some (slot, none) }
    | some value => draft.fill slot (some value)

/-- Takes an argument that begins with two dashes: a name, and after `=` a value. -/
def takeLong (accepted : Accepted) (draft : Draft) (body : List Char) : Except Halt Draft :=
  let name := body.takeWhile (· ≠ '=')
  let attached := (body.dropWhile (· ≠ '=')).tail?.map String.ofList
  match flagOfName? accepted name with
  | none => .error .unknownArgument
  | some flag =>
    match flag, attached with
    | .help, some _ | .version, some _ => .error .unneededValue
    | flag, attached => draft.takeFlag attached flag

/-- Takes an argument that begins with one dash: a letter, and right after it, or after `=`, a
value. -/
def takeShort (accepted : Accepted) (draft : Draft) (letter : Char) (body : List Char) :
    Except Halt Draft :=
  let attached := match body with
    | [] => none
    | '=' :: value => some (String.ofList value)
    | value => some (String.ofList value)
  match flagOfLetter? accepted letter with
  | none => .error .unknownArgument
  | some flag => draft.takeFlag attached flag

/-- Takes an argument before which no `--` stands and that is not `--` itself. -/
def take (accepted : Accepted) (draft : Draft) (arg : String) : Except Halt Draft :=
  match arg.toList with
  | '-' :: '-' :: body => draft.takeLong accepted body
  | '-' :: letter :: body => draft.takeShort accepted letter body
  | _ => draft.takeWord arg

def takeAll (accepted : Accepted) (draft : Draft) : List String → Except Halt Draft
  | [] => draft.settle
  | arg :: args =>
    if arg = "--" then do
      let draft ← args.foldlM takeInput draft
      draft.settle
    else do
      let draft ← draft.take accepted arg
      takeAll accepted draft args

end Draft

def parse (accepted : Accepted) (args : List String) : Except Halt Arguments := do
  let draft ← Draft.takeAll accepted {} args
  match draft.input with
  | none => .error .missingArgument
  | some input =>
    if accepted.recipe && draft.recipe.isNone then .error .missingArgument
    else return {
      recipe := draft.recipe
      input
      format := draft.format.getD .plain
      output := draft.output }

end Arguments

end BenchLog
