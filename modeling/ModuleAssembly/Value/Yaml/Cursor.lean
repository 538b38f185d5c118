/-!
# Places in a YAML text

A `Cursor` is a place in a text, with the line and the column it is on. Line feed, next line, and
the line and paragraph separators break lines.
-/

namespace ModuleAssembly.Yaml

/-- A place in the text: what follows it, and where it is. -/
structure Cursor where
  /-- The text from here on. -/
  rest : List Char
  /-- Lines before this one. -/
  line : Nat
  /-- Characters before this one on its line. -/
  column : Nat
  /-- Characters before this one. -/
  offset : Nat
deriving Inhabited

/-- A character that ends a line. -/
def isBreak (c : Char) : Bool :=
  c == '\n' || c.toNat == 0x85 || c.toNat == 0x2028 || c.toNat == 0x2029

/-- Whether a text starts with space, with the end of a line, or is at its end. -/
def startsBlank : List Char → Bool
  | [] => true
  | c :: _ => c == ' ' || c == '\t' || isBreak c

namespace Cursor

/-- The character at a cursor. -/
def peek? (c : Cursor) : Option Char :=
  c.rest.head?

/-- Moves past `n` characters of one line. -/
def skip (c : Cursor) (n : Nat) : Cursor :=
  { c with rest := c.rest.drop n, column := c.column + n, offset := c.offset + n }

/-- The characters of a class from the cursor on, and the cursor after them. -/
def span (p : Char → Bool) (c : Cursor) : List Char × Cursor :=
  let taken := c.rest.takeWhile p
  (taken, c.skip taken.length)

/-- Moves past the characters of a class. -/
def skipWhile (p : Char → Bool) (c : Cursor) : Cursor :=
  (c.span p).2

/-- Moves past a line break, and gives the break as text keeps it: a next line counts as a line
feed. -/
def lineBreak? (c : Cursor) : Option (Char × Cursor) :=
  match c.rest with
  | b :: rest =>
    if isBreak b then
      some (if b.toNat == 0x85 then '\n' else b, ⟨rest, c.line + 1, 0, c.offset + 1⟩)
    else none
  | [] => none

/-- Whether the cursor stands before a given mark of three characters and then space. -/
def atMark (c : Cursor) (mark : String) : Bool :=
  mark.toList.isPrefixOf c.rest && startsBlank (c.rest.drop 3)

/-- Whether the cursor stands before the line that starts or ends a document. -/
def atDocumentMark (c : Cursor) : Bool :=
  c.atMark "---" || c.atMark "..."

end Cursor

end ModuleAssembly.Yaml
