import BenchLog.Recipe.Basic
import BenchLog.Toml.Printer

/-!
# Recipes in TOML

`Recipe.ofToml?` takes a recipe out of a TOML document: the `name`, the number of `blocks`, which
may be left out, and the `metrics`, each a table, or an array of the values of its fields in
order. Names and metrics are required, other fields of a metric have defaults, and entries with
other names are passed over.

`Recipe.written?` writes a recipe with all of its fields, in a form that `ofToml?` takes back.
-/

namespace BenchLog

namespace Toml

def natural? : Toml → Option Nat
  | integer (.ofNat n) => some n
  | _ => none

/-- One of several words, which may also be the name of the only member of a table, with an empty
table or array as its value. -/
def choice? {α : Type} (ofWord? : String → Option α) : Toml → Option α
  | string word => ofWord? word
  | table [(word, table [])] => ofWord? word
  | table [(word, array [])] => ofWord? word
  | _ => none

/-- A field that may be left out. -/
def fieldOr {α : Type} (default : α) (read? : Toml → Option α) : Option Toml → Option α
  | none => some default
  | some value => read? value

end Toml

/-! ## Reading -/

/-- The metric of the given fields, each of which may be absent. -/
def MetricSpec.ofFields? (name kind strip separator : Option Toml) : Option MetricSpec := do
  return {
    name := ← (← name).text?
    kind := ← Toml.fieldOr .float (Toml.choice? NumericKind.ofWord?) kind
    strip := ← Toml.fieldOr 0 Toml.natural? strip
    separator := ← Toml.fieldOr .keep (Toml.choice? SeparatorRule.ofWord?) separator }

def MetricSpec.ofToml? : Toml → Option MetricSpec
  | .table members =>
    ofFields? (members.lookup "name") (members.lookup "kind") (members.lookup "strip")
      (members.lookup "separator")
  | .array items => ofFields? items[0]? items[1]? items[2]? items[3]?
  | _ => none

def Recipe.ofToml? : Toml → Option Recipe
  | .table members => do
    return {
      name := ← (← members.lookup "name").text?
      blocks := ← Toml.fieldOr defaultBlocks Toml.natural? (members.lookup "blocks")
      metrics := ← (← (← members.lookup "metrics").items?).mapM MetricSpec.ofToml? }
  | _ => none

/-- Why a text gives no recipe. -/
inductive Recipe.TextError where
  /-- The text is not TOML, or it is not that of a recipe. -/
  | malformed
  | unusable (fault : Recipe.Fault)
  deriving DecidableEq, Repr

def Recipe.ofText (text : List Char) : Except Recipe.TextError Recipe :=
  match (Toml.read? text).bind Recipe.ofToml? with
  | none => .error .malformed
  | some recipe =>
    match recipe.validate with
    | .ok () => .ok recipe
    | .error fault => .error (.unusable fault)

/-! ## Writing -/

def Toml.Statement.field (name : String) (value : Toml) : Toml.Statement :=
  .entry ⟨[], name⟩ value

def MetricSpec.statements (spec : MetricSpec) : List Toml.Statement :=
  [.element ⟨[], "metrics"⟩, .field "name" (.string spec.name),
    .field "kind" (.string spec.kind.word), .field "strip" (.integer spec.strip),
    .field "separator" (.string spec.separator.word)]

def Recipe.statements (recipe : Recipe) : List Toml.Statement :=
  [.field "name" (.string recipe.name), .field "blocks" (.integer recipe.blocks)]
    ++ if recipe.metrics.isEmpty then [.field "metrics" (.array [])]
      else recipe.metrics.flatMap MetricSpec.statements

/-- A recipe in TOML. There is none if one of its numbers does not fit 64 signed bits. -/
def Recipe.written? (recipe : Recipe) : Option (List Char) :=
  if fitsSigned64 recipe.blocks
      && recipe.metrics.all (fun spec => fitsSigned64 spec.strip) then
    some (Toml.writeDocument recipe.statements)
  else none

end BenchLog
