import BenchLog.Json.Value

/-!
# Writing JSON

`Json.render` writes a document in one of two layouts: `compact`, without any blank, or
`indented`, with every item of an array and every member of an object on a line of its own, two
spaces further in than what holds it, and a space after each colon. Arrays and objects that are
empty take two characters in both.
-/

namespace BenchLog.Json

inductive Layout where
  | compact
  | indented
  deriving DecidableEq, Repr

/-! ## Strings -/

def hexDigit (n : Nat) : Char := Nat.digitChar n

/-- One character of a string. Below the space, what has no letter of its own is written with its
code. -/
def escape (c : Char) : List Char :=
  if c = '"' then ['\\', '"']
  else if c = '\\' then ['\\', '\\']
  else if c = '\x08' then ['\\', 'b']
  else if c = '\x0c' then ['\\', 'f']
  else if c = '\n' then ['\\', 'n']
  else if c = '\r' then ['\\', 'r']
  else if c = '\t' then ['\\', 't']
  else if c.toNat < 0x20 then
    ['\\', 'u', '0', '0', hexDigit (c.toNat / 16), hexDigit (c.toNat % 16)]
  else [c]

def quote (text : List Char) : List Char := '"' :: (text.flatMap escape ++ ['"'])

/-- A string. What has no text is written as half of a surrogate pair. -/
def renderString : Option String → List Char
  | some text => quote text.toList
  | none => ['"', '\\', 'u', 'd', '8', '0', '0', '"']

/-! ## Numbers -/

/-- The exponent of a number; its sign is always written. -/
def renderExponent : Option Int → List Char
  | none => []
  | some (.ofNat n) => 'e' :: '+' :: Nat.toDigits 10 n
  | some (.negSucc n) => 'e' :: '-' :: Nat.toDigits 10 (n + 1)

def Number.render (n : Number) : List Char :=
  (if n.negative then ['-'] else []) ++ n.whole
    ++ (if n.fraction.isEmpty then [] else '.' :: n.fraction) ++ renderExponent n.exponent

/-! ## Documents -/

/-- What separates an opening bracket or a comma from the item that follows. -/
def Layout.newLine (layout : Layout) (depth : Nat) : List Char :=
  match layout with
  | compact => []
  | indented => '\n' :: List.replicate (2 * depth) ' '

/-- What separates a name from its value. -/
def Layout.colon : Layout → List Char
  | compact => [':']
  | indented => [':', ' ']

mutual

/-- Writes a document that stands so many brackets deep. -/
def renderAt (layout : Layout) (depth : Nat) : Json → List Char
  | null => "null".toList
  | boolean true => "true".toList
  | boolean false => "false".toList
  | number n => n.render
  | string text => renderString text
  | array [] => ['[', ']']
  | array (item :: items) =>
    '[' :: (layout.newLine (depth + 1) ++ renderAt layout (depth + 1) item
      ++ moreItems layout (depth + 1) items ++ layout.newLine depth ++ [']'])
  | object [] => ['\x7b', '\x7d']
  | object ((name, value) :: members) =>
    '\x7b' :: (layout.newLine (depth + 1) ++ renderString name ++ layout.colon
      ++ renderAt layout (depth + 1) value ++ moreMembers layout (depth + 1) members
      ++ layout.newLine depth ++ ['\x7d'])

/-- Writes the items after the first. -/
def moreItems (layout : Layout) (depth : Nat) : List Json → List Char
  | [] => []
  | item :: items =>
    ',' :: (layout.newLine depth ++ renderAt layout depth item ++ moreItems layout depth items)

/-- Writes the members after the first. -/
def moreMembers (layout : Layout) (depth : Nat) : List (Option String × Json) → List Char
  | [] => []
  | (name, value) :: members =>
    ',' :: (layout.newLine depth ++ renderString name ++ layout.colon
      ++ renderAt layout depth value ++ moreMembers layout depth members)

end

def render (layout : Layout) (document : Json) : List Char := renderAt layout 0 document

end BenchLog.Json
