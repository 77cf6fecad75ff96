/-!
# White space

`isBlank` is the Unicode property White_Space, twenty-five characters. It is wider than
`Char.isWhitespace`, which knows four of them. `trim` removes blank characters from both ends of
a text.
-/

namespace BenchLog

/-- Closed ranges of code points, ascending and apart. -/
def blankRanges : List (Nat × Nat) :=
  [(0x09, 0x0D), (0x20, 0x20), (0x85, 0x85), (0xA0, 0xA0), (0x1680, 0x1680), (0x2000, 0x200A),
   (0x2028, 0x2029), (0x202F, 0x202F), (0x205F, 0x205F), (0x3000, 0x3000)]

def isBlank (c : Char) : Bool :=
  blankRanges.any fun (first, last) => first ≤ c.toNat && c.toNat ≤ last

/-- The text without its blank characters at the start. -/
def trimStart (text : List Char) : List Char := text.dropWhile isBlank

/-- The text without its blank characters at the end. -/
def trimEnd (text : List Char) : List Char := (text.reverse.dropWhile isBlank).reverse

/-- The text without blank characters at either end. -/
def trim (text : List Char) : List Char := trimEnd (trimStart text)

end BenchLog
