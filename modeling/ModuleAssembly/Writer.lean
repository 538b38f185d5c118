import ModuleAssembly.Output
import ModuleAssembly.Token

/-!
# The writer

A `Writer` turns pieces of code into tokens. It indents every line that is not empty, at the moment
the line gets its first character or symbol, so that a level changed in the middle of a line counts
from the next line on; neighbouring texts become one token. Its state is changed by one `Piece`
after the other (`Writer.put`), and a text is put character by character, so it does not matter how
text is cut into pieces.
-/

namespace ModuleAssembly

/-- What a writer is told to write, or to do. -/
inductive Piece where
  /-- Text, with its line breaks. -/
  | text (s : String)
  /-- A use of a symbol. -/
  | usage (symbol : Symbol)
  /-- A binding of a symbol. -/
  | binding (symbol : Symbol)
  /-- Go one level deeper. -/
  | indent
  /-- Go one level back, or stay at the outermost. -/
  | unindent
  /-- End the line, unless it is at its start. -/
  | freshLine
deriving DecidableEq, Repr, Inhabited

/-- The state of a writer. -/
structure Writer where
  /-- The tokens so far, the latest first. -/
  latest : List Token := []
  /-- What a line is indented by at each level. -/
  unit : String := "  "
  /-- The level of indentation. -/
  level : Nat := 0
  /-- Whether nothing has been written on the line. -/
  atLineStart : Bool := true
deriving DecidableEq, Repr, Inhabited

namespace Writer

/-- The tokens in the order in which they were written. -/
def tokens (w : Writer) : List Token :=
  w.latest.reverse

/-- The indentation of a line. -/
def indentation (w : Writer) : String :=
  String.join (List.replicate w.level w.unit)

/-- Adds text to the latest token, or as a token of its own after a symbol. -/
def append (w : Writer) (s : String) : Writer :=
  match w with
  | ⟨.text t :: rest, unit, level, atLineStart⟩ =>
    ⟨.text (t ++ s) :: rest, unit, level, atLineStart⟩
  | ⟨latest, unit, level, atLineStart⟩ => ⟨.text s :: latest, unit, level, atLineStart⟩

/-- Indents the line if nothing has been written on it. At level zero there is nothing to add. -/
def beginLine (w : Writer) : Writer :=
  if w.atLineStart then
    let w := { w with atLineStart := false }
    if w.level = 0 then w else w.append w.indentation
  else w

/-- Writes a character. -/
def putChar (w : Writer) (c : Char) : Writer :=
  if c = '\n' then { w.append "\n" with atLineStart := true }
  else w.beginLine.append (String.singleton c)

/-- Writes a text. -/
def putText (w : Writer) (s : String) : Writer :=
  s.toList.foldl putChar w

/-- Writes a token that is not text. -/
def putSymbol (w : Writer) (t : Token) : Writer :=
  let w := w.beginLine
  { w with latest := t :: w.latest }

/-- Writes, or does, what a piece says. -/
def put (w : Writer) : Piece → Writer
  | .text s => w.putText s
  | .usage s => w.putSymbol (.usage s)
  | .binding s => w.putSymbol (.binding s)
  | .indent => { w with level := w.level + 1 }
  | .unindent => { w with level := w.level - 1 }
  | .freshLine => if w.atLineStart then w else w.putText "\n"

/-- Writes pieces in order. -/
def write (w : Writer) (pieces : List Piece) : Writer :=
  pieces.foldl put w

/-- A text may be written in two pieces. -/
theorem putText_append (w : Writer) (s t : String) :
    w.putText (s ++ t) = (w.putText s).putText t := by
  simp [putText]

/-- Pieces may be written in two lists. -/
theorem write_append (w : Writer) (ps qs : List Piece) :
    w.write (ps ++ qs) = (w.write ps).write qs := by
  simp [write]

end Writer

end ModuleAssembly
