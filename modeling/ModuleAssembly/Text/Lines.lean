import ModuleAssembly.Text.Cut

/-!
# Lines of text

`lines` cuts text at every line boundary: line feed, carriage return (the pair of both counts
once), vertical tab, form feed, the separators U+001C to U+001E, next line U+0085, and the line
and paragraph separators U+2028 and U+2029. A boundary ends its line, so text that ends with one
has no empty line after it, and empty text has no lines.

Files end their lines in fewer ways: `lineFeeds` replaces a carriage return, or a pair of it and a
line feed, by a line feed, and `textLines` cuts at these alone.
-/

namespace ModuleAssembly.Text

/-- A character that ends a line. -/
def isLineBreak (c : Char) : Bool :=
  let n := c.toNat
  (10 ≤ n && n ≤ 13) || (0x1C ≤ n && n ≤ 0x1E) || n == 0x85 || n == 0x2028 || n == 0x2029

/-- The lines of `current.reverse ++ text`, where `current` holds the characters of the unfinished
line, the latest first. -/
def linesFrom (current : List Char) : List Char → List (List Char)
  | [] => if current.isEmpty then [] else [current.reverse]
  | '\r' :: '\n' :: rest => current.reverse :: linesFrom [] rest
  | c :: rest =>
    if isLineBreak c then current.reverse :: linesFrom [] rest else linesFrom (c :: current) rest

/-- The lines of a text, without the boundaries that end them. -/
def lines (s : String) : List String :=
  (linesFrom [] s.toList).map String.ofList

/-- Line feeds for the line ends of files: a carriage return, alone or before a line feed. -/
def lineFeeds : List Char → List Char
  | '\r' :: '\n' :: rest => '\n' :: lineFeeds rest
  | '\r' :: rest => '\n' :: lineFeeds rest
  | c :: rest => c :: lineFeeds rest
  | [] => []

/-- The lines of a file's text. -/
def textLines (s : String) : List String :=
  let lines := (partsAt '\n' (lineFeeds s.toList)).map String.ofList
  if lines.getLast? = some "" then lines.dropLast else lines

end ModuleAssembly.Text
