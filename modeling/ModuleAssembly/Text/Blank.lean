/-!
# Blank characters

Two nested classes of characters and the trimming of text. `isWhiteSpace` is the Unicode property
White_Space; `isBlank` adds the four information separators U+001C to U+001F, which end a line of
text and are trimmed with the rest. The zero-width space and the byte order mark belong to neither.

`trimEnd` and `trim` remove blank characters from the end, or from both ends.
-/

namespace ModuleAssembly.Text

/-- The Unicode property White_Space. -/
def isWhiteSpace (c : Char) : Bool :=
  let n := c.toNat
  (9 ≤ n && n ≤ 13) || n == 32 || n == 0x85 || n == 0xA0 || n == 0x1680 ||
    (0x2000 ≤ n && n ≤ 0x200A) || n == 0x2028 || n == 0x2029 || n == 0x202F || n == 0x205F ||
    n == 0x3000

/-- White space, and the information separators U+001C to U+001F. -/
def isBlank (c : Char) : Bool :=
  isWhiteSpace c || (0x1C ≤ c.toNat && c.toNat ≤ 0x1F)

/-- The characters of `cs` up to the last one for which `p` fails. -/
def dropEndWhile (p : Char → Bool) (cs : List Char) : List Char :=
  (cs.reverse.dropWhile p).reverse

/-- Removes the characters of a class from both ends. -/
def dropAroundWhile (p : Char → Bool) (cs : List Char) : List Char :=
  dropEndWhile p (cs.dropWhile p)

/-- Removes the blank characters at the end. -/
def trimEnd (s : String) : String :=
  String.ofList (dropEndWhile isBlank s.toList)

/-- Removes the blank characters at both ends. -/
def trim (s : String) : String :=
  String.ofList (dropAroundWhile isBlank s.toList)

end ModuleAssembly.Text
