import BenchLog.Binary64.Basic

/-!
# TOML values

A `Toml` is a TOML document, or a part of one, as data. How a table came to be, by a header, a
dotted key or inline, makes no difference here.
-/

namespace BenchLog

inductive Toml where
  | string (value : String)
  /-- A whole number; a document holds only those that fit 64 signed bits. -/
  | integer (value : Int)
  | float (value : Binary64)
  | boolean (value : Bool)
  /-- A date, a time or both, as written. -/
  | dateTime (written : String)
  | array (items : List Toml)
  | table (members : List (String × Toml))

namespace Toml

def text? : Toml → Option String
  | string value => some value
  | _ => none

def items? : Toml → Option (List Toml)
  | array items => some items
  | _ => none

end Toml

end BenchLog
