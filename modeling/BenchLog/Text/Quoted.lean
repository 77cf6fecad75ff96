import BenchLog.Text.Unprintable

/-!
# Quoted text

`quoted` shows a text inside double quotes so that every character can be seen. A quote and a
backslash get a backslash before them, NUL, tab, line feed and carriage return have letters of
their own, and any other character that does not show by itself is written `\u` with its code
point in lower-case hexadecimal between braces.
-/

namespace BenchLog

def quotedChar : Char → List Char
  | '"' => ['\\', '"']
  | '\\' => ['\\', '\\']
  | '\x00' => ['\\', '0']
  | '\t' => ['\\', 't']
  | '\n' => ['\\', 'n']
  | '\r' => ['\\', 'r']
  | c =>
    if isUnprintable c then
      '\\' :: 'u' :: '\x7b' :: (Nat.toDigits 16 c.toNat ++ ['\x7d'])
    else [c]

/-- The text in double quotes, with what does not show by itself escaped. -/
def quoted (text : List Char) : List Char := '"' :: (text.flatMap quotedChar ++ ['"'])

end BenchLog
