import BenchLog.Decimal.Layout
import BenchLog.Toml.Reader

/-!
# Writing TOML

`writeDocument` writes statements one after the other, each on a line of its own and with an empty
line before each header. Strings stand between double quotes, and so do the parts of a key that
need them.
-/

namespace BenchLog.Toml

def writeInteger : Int → List Char
  | .ofNat n => Nat.toDigits 10 n
  | .negSucc n => '-' :: Nat.toDigits 10 (n + 1)

def writeFloat (x : Binary64) : List Char :=
  if x.isNaN then "nan".toList else x.readable

def writeKeyPart (name : String) : List Char :=
  if name.toList ≠ [] && name.toList.all isBareKeyChar then name.toList else quoteText name.toList

mutual

def writeValue : Toml → List Char
  | string value => quoteText value.toList
  | integer value => writeInteger value
  | float value => writeFloat value
  | boolean value => (if value then "true" else "false").toList
  | dateTime written => written.toList
  | array [] => ['[', ']']
  | array (item :: items) => '[' :: (writeValue item ++ writeMoreItems items)
  | table [] => ['\x7b', '\x7d']
  | table ((name, value) :: members) =>
    '\x7b' :: (writeKeyPart name ++ " = ".toList ++ writeValue value ++ writeMoreMembers members)

/-- Writes the items after the first, and the closing bracket. -/
def writeMoreItems : List Toml → List Char
  | [] => [']']
  | item :: items => ',' :: ' ' :: (writeValue item ++ writeMoreItems items)

/-- Writes the members after the first, and the closing bracket. -/
def writeMoreMembers : List (String × Toml) → List Char
  | [] => ['\x7d']
  | (name, value) :: members =>
    ',' :: ' ' :: (writeKeyPart name ++ " = ".toList ++ writeValue value
      ++ writeMoreMembers members)

end

def writeKey (path : KeyPath) : List Char :=
  path.parents.flatMap (fun name => writeKeyPart name ++ ['.']) ++ writeKeyPart path.name

def writeStatement : Statement → List Char
  | .entry path value => writeKey path ++ " = ".toList ++ writeValue value ++ ['\n']
  | .header path => '\n' :: '[' :: (writeKey path ++ [']', '\n'])
  | .element path => '\n' :: '[' :: '[' :: (writeKey path ++ [']', ']', '\n'])

def writeDocument (statements : List Statement) : List Char := statements.flatMap writeStatement

end BenchLog.Toml
