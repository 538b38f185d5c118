import ModuleAssembly.Text.Blank
import ModuleAssembly.Text.Lines

/-!
# Comments

`docComment` writes the block comment that documents a declaration: on one line when the text has
one line, otherwise one line each between an opening and a closing line. `scrub` separates every
star from a slash after it, so that the text cannot close the comment around it. `headerComment`
writes the comment at the head of a file, a line comment for each line of the text.
-/

namespace ModuleAssembly.Text

/-- Puts a space between each star and a slash that follows it. -/
def scrubChars : List Char → List Char
  | '*' :: '/' :: rest => '*' :: ' ' :: '/' :: scrubChars rest
  | c :: rest => c :: scrubChars rest
  | [] => []

/-- The text without the mark that closes a block comment. -/
def scrub (s : String) : String :=
  String.ofList (scrubChars s.toList)

/-- The lines of a documentation text, scrubbed and without blank edges. -/
def docLines (doc : String) : List String :=
  lines (trim (scrub doc))

/-- The block comment of a documentation text; nothing for the empty text. -/
def docComment (doc : String) : String :=
  if doc.isEmpty then ""
  else
    match docLines doc with
    | [line] => "/** " ++ line ++ " */\n"
    | several =>
      "/**\n" ++ String.join (several.map fun line => trimEnd (" * " ++ line) ++ "\n") ++ " */\n"

/-- The line comments of a header text. -/
def headerComment (comment : String) : String :=
  String.join ((lines comment).map fun line => trimEnd ("// " ++ line) ++ "\n")

end ModuleAssembly.Text
