import ModuleAssembly.Fault

/-!
# Formats of code blocks

A format is text with placeholders: `%T` for a type, `%L` for a literal and `%S` for a string;
`%%` stands for a percent sign. `Format.parse` cuts a format into its parts, joining neighbouring
text, and fails at the first percent sign that starts none of the four; `Format.unparse` writes
parts back.
-/

namespace ModuleAssembly

namespace Format

/-- A part of a format. -/
inductive Part where
  /-- Text that is written as it is. -/
  | text (s : String)
  /-- The place of a type. -/
  | type
  /-- The place of a literal. -/
  | literal
  /-- The place of a string. -/
  | string
deriving DecidableEq, Repr, Inhabited

/-- The placeholder of a character after a percent sign. -/
def placeholder? : Char → Option Part
  | 'T' => some .type
  | 'L' => some .literal
  | 'S' => some .string
  | _ => none

/-- Whether a part is a placeholder. -/
def Part.isPlaceholder : Part → Bool
  | .text _ => false
  | _ => true

/-- The parts after some text; no text gives no part. -/
def textThen (text : List Char) (parts : List Part) : List Part :=
  if text.isEmpty then parts else .text (String.ofList text) :: parts

/-- The parts of a format after the text in `read`, which holds its characters latest first;
`format` is the whole of it, for messages. -/
def parseFrom (format : String) (read : List Char) : List Char → Except Fault (List Part)
  | [] => .ok (textThen read.reverse [])
  | ['%'] => .error (.danglingPercent format)
  | '%' :: mark :: rest =>
    if mark = '%' then parseFrom format ('%' :: read) rest
    else
      match placeholder? mark with
      | some part =>
        (parseFrom format [] rest).map fun parts => textThen read.reverse (part :: parts)
      | none => .error (.unknownPlaceholder mark format)
  | c :: rest => parseFrom format (c :: read) rest

/-- The parts of a format. -/
def parse (format : String) : Except Fault (List Part) :=
  parseFrom format [] format.toList

/-- The written form of text in a format. -/
def doubled (cs : List Char) : List Char :=
  cs.flatMap fun c => if c = '%' then ['%', '%'] else [c]

/-- The written form of a part. -/
def Part.written : Part → List Char
  | .text s => doubled s.toList
  | .type => ['%', 'T']
  | .literal => ['%', 'L']
  | .string => ['%', 'S']

/-- The format with the given parts. -/
def unparse (parts : List Part) : String :=
  String.ofList (parts.flatMap Part.written)

end Format

end ModuleAssembly
