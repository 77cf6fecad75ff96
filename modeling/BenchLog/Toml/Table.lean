import BenchLog.Toml.Value

/-!
# Building tables

A TOML document is a sequence of statements that grow one table. Whether a statement may touch a
table depends on how the table came to be, so a growing table remembers that of each of its parts:

* a table that a header names is closed to other headers of that name and to dotted keys;
* a table that is only implied, because a longer header passes through it, can still get a header
  of its own, and dotted keys may go through it;
* a table made by dotted keys may get more of them;
* a value, inline tables included, is closed.

A list of tables grows at its end, and a path that leads through it leads through its last table.
-/

namespace BenchLog.Toml

/-- The name of an entry or a table, behind the names of the tables that lead to it. -/
structure KeyPath where
  parents : List String
  name : String
  deriving DecidableEq, Repr

/-- How a table came to be. -/
inductive Origin where
  | header
  | implied
  | dotted
  deriving DecidableEq, Repr

/-- A part of a growing table. -/
inductive Item where
  | value (value : Toml)
  | table (origin : Origin) (entries : List (String × Item))
  /-- A list of tables: those before the last, which are finished, and the entries of the last. -/
  | tables (earlier : List Toml) (entries : List (String × Item))

abbrev Entries := List (String × Item)

mutual

def Item.finish : Item → Toml
  | .value value => value
  | .table _ entries => Toml.table (finishAll entries)
  | .tables earlier entries => Toml.array (earlier ++ [Toml.table (finishAll entries)])

def finishAll : List (String × Item) → List (String × Toml)
  | [] => []
  | (name, item) :: entries => (name, item.finish) :: finishAll entries

end

namespace Entries

/-- Puts an item in the place of the first of its name, or else at the end. -/
def put (name : String) (item : Item) : Entries → Entries
  | [] => [(name, item)]
  | (other, old) :: entries =>
    if other = name then (name, item) :: entries else (other, old) :: put name item entries

/-- Changes the table that a path leads to, given how that table came to be. Tables that do not
exist yet are made on the way, of origin `made`; a path of dotted keys (`made = .dotted`) leads
through no table that has a header. -/
def change (made : Origin) (edit : Origin → Entries → Option Entries) (origin : Origin) :
    List String → Entries → Option Entries
  | [], entries => edit origin entries
  | name :: path, entries =>
    match entries.lookup name with
    | none => do
      return entries.put name (.table made (← change made edit made path []))
    | some (.value _) => none
    | some (.table inner nested) =>
      if made = .dotted && inner = .header then none
      else do return entries.put name (.table inner (← change made edit inner path nested))
    | some (.tables earlier nested) => do
      return entries.put name (.tables earlier (← change made edit .header path nested))

/-- Adds a value to a table, the path being a key written in it. The key has to be new, and if it
is dotted, its last table has to be one made by dotted keys. -/
def insert (path : KeyPath) (value : Toml) (entries : Entries) : Option Entries :=
  change .dotted
    (fun origin entries =>
      if path.parents ≠ [] && origin ≠ .dotted then none
      else if (entries.lookup path.name).isSome then none
      else some (entries ++ [(path.name, .value value)]))
    .header path.parents entries

/-- Makes the table of a header. It has to be new or only implied so far. -/
def declare (path : KeyPath) (entries : Entries) : Option Entries :=
  change .implied
    (fun _ entries =>
      match entries.lookup path.name with
      | none => some (entries ++ [(path.name, .table .header [])])
      | some (.table .implied nested) => some (entries.put path.name (.table .header nested))
      | _ => none)
    .header path.parents entries

/-- Adds a table to a list of tables, which is made if it does not exist. -/
def extend (path : KeyPath) (entries : Entries) : Option Entries :=
  change .implied
    (fun _ entries =>
      match entries.lookup path.name with
      | none => some (entries ++ [(path.name, .tables [] [])])
      | some (.tables earlier last) =>
        some (entries.put path.name (.tables (earlier ++ [.table (finishAll last)]) []))
      | _ => none)
    .header path.parents entries

/-- Adds a value to the table that a header's path leads to. -/
def insertAt (here : List String) (path : KeyPath) (value : Toml) (entries : Entries) :
    Option Entries :=
  change .implied (fun _ entries => entries.insert path value) .header here entries

end Entries

def inlineTable? (members : List (KeyPath × Toml)) : Option Toml := do
  let add (entries : Entries) : KeyPath × Toml → Option Entries
    | (path, value) => entries.insert path value
  let entries ← members.foldlM add []
  return table (finishAll entries)

/-! ## Documents -/

inductive Statement where
  /-- `path = value` -/
  | entry (path : KeyPath) (value : Toml)
  /-- `[path]` -/
  | header (path : KeyPath)
  /-- `[[path]]` -/
  | element (path : KeyPath)

/-- A document that is being built: the outermost table, and the path of the table that entries
go to. -/
structure Draft where
  entries : Entries := []
  here : List String := []

def Draft.apply (draft : Draft) : Statement → Option Draft
  | .entry path value => do
    return { draft with entries := ← draft.entries.insertAt draft.here path value }
  | .header path => do
    return { entries := ← draft.entries.declare path, here := path.parents ++ [path.name] }
  | .element path => do
    return { entries := ← draft.entries.extend path, here := path.parents ++ [path.name] }

def ofStatements? (statements : List Statement) : Option Toml := do
  let draft ← statements.foldlM Draft.apply {}
  return table (finishAll draft.entries)

end BenchLog.Toml
