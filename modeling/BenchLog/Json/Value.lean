/-!
# JSON values

A `Json` is a JSON document as data. Numbers keep the digits they are written with, and the
members of an object their order and repetitions, so that whoever takes a document apart can say
what it makes of them.

A JSON string can spell half of a surrogate pair, which is no character. Such a string is a value,
but has no text: it is `Json.string none`.
-/

namespace BenchLog

/-- A number as it is written. -/
structure Json.Number where
  negative : Bool := false
  /-- The digits before the point. -/
  whole : List Char
  /-- The digits after the point; without a point there are none. -/
  fraction : List Char := []
  /-- The power of ten after `e`. -/
  exponent : Option Int := none
  deriving DecidableEq, Repr

/-- A JSON document. -/
inductive Json where
  | null
  | boolean (value : Bool)
  | number (value : Json.Number)
  | string (text : Option String)
  | array (items : List Json)
  | object (members : List (Option String × Json))

namespace Json

/-- A string that has a text. -/
def text (s : String) : Json := string (some s)

def natural (n : Nat) : Json := number { whole := Nat.toDigits 10 n }

/-- An object whose names have a text. -/
def record (members : List (String × Json)) : Json :=
  object (members.map fun (name, value) => (some name, value))

def text? : Json → Option String
  | string text => text
  | _ => none

def items? : Json → Option (List Json)
  | array items => some items
  | _ => none

/-- The values of a record with the given field names, in their order: `none` where a field is
absent. A record is an object in which no field stands twice and every name has a text, or an
array of the values of all fields. Other members of an object are passed over. -/
def fields? (names : List String) : Json → Option (List (Option Json))
  | array items => if items.length = names.length then some (items.map some) else none
  | object members =>
    if members.any (·.1.isNone) then none
    else names.mapM fun name =>
      match members.filter (·.1 = some name) with
      | [] => some none
      | [(_, value)] => some (some value)
      | _ => none
  | _ => none

end Json

end BenchLog
