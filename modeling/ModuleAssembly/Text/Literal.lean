/-!
# String literals

A string literal stands in single quotes. Inside, a backslash and a single quote follow a
backslash, and a line feed is written as a backslash and the letter n; every other character
stands for itself. `quote` writes the literal of a text.
-/

namespace ModuleAssembly.Text

/-- The written form of one character inside a literal. -/
def literalChar (c : Char) : List Char :=
  if c = '\\' then ['\\', '\\']
  else if c = '\'' then ['\\', '\'']
  else if c = '\n' then ['\\', 'n']
  else [c]

/-- The characters between the quotes of a literal. -/
def literalBody (cs : List Char) : List Char :=
  cs.flatMap literalChar

/-- The string literal of a text. -/
def quote (s : String) : String :=
  String.ofList ('\'' :: literalBody s.toList ++ ['\''])

end ModuleAssembly.Text
