import ModuleAssembly.Binary64.Shortest
import ModuleAssembly.Format
import ModuleAssembly.Output
import ModuleAssembly.TypeExpr

/-!
# Code blocks

A `CodeBlock` is free code: a format and an argument for each of its placeholders. `segments` binds
the arguments to the placeholders in order; a text bound to a type placeholder is read as the short
form of a type, which may fail only there.

`CodeBlock.check` says what a block of a file must satisfy: its format has parts, as many
placeholders as arguments, and no truth value or number stands for a type.

Where a text is asked for, an argument may have none: `described` says why.
-/

namespace ModuleAssembly

/-- An argument of a code block. -/
inductive Argument where
  /-- A type. -/
  | type (type : TypeExpr)
  /-- A text, which stands for a type where one is asked for. -/
  | text (value : String)
  /-- An integer. -/
  | int (value : Int)
  /-- A floating point number. -/
  | float (value : Binary64)
  /-- A truth value. -/
  | bool (value : Bool)
deriving Repr, Inhabited

namespace Argument

/-- The text of a truth value where a text is asked for. -/
def boolText (value : Bool) : String :=
  if value then "True" else "False"

/-- The text of an argument, or why it has none. -/
def described : Argument → Except Fault String
  | .type t => t.described
  | .text s => .ok s
  | .int n => (Text.ofInteger? n).elim (.error .integerTooLong) .ok
  | .float x => .ok x.text
  | .bool b => .ok (boolText b)

/-- The argument as a literal of generated code: its text, but truth values in lower case. -/
def literal : Argument → Except Fault String
  | .bool b => .ok (if b then "true" else "false")
  | a => a.described

/-- The name of the kind of an argument, as messages give it. -/
def kindName : Argument → String
  | .type t => t.kindName
  | .text _ => "str"
  | .int _ => "int"
  | .float _ => "float"
  | .bool _ => "bool"

/-- Whether an argument can stand for a type. -/
def isTypeLike : Argument → Bool
  | .type _ | .text _ => true
  | _ => false

end Argument

/-- Code with placeholders, and what they stand for. -/
structure CodeBlock where
  /-- The code, with its placeholders. -/
  format : String
  /-- The arguments, one a placeholder. -/
  args : List Argument := []
deriving Repr, Inhabited

/-- A part of a code block with its argument. -/
inductive Segment where
  /-- Text that is written as it is. -/
  | text (s : String)
  /-- A type. -/
  | type (t : TypeExpr)
  /-- A literal. -/
  | literal (a : Argument)
  /-- What a string literal is made of. -/
  | string (a : Argument)
deriving Repr, Inhabited

namespace Segment

/-- The segment of a type placeholder. -/
def ofTypeArgument : Argument → Output Segment
  | .type t => .single (.type t)
  | .text s =>
    match TypeExpr.ofShorthand? s with
    | some t => .single (.type t)
    | none => .stop (.badReference s)
  | a => .stop (.unhandledType a.kindName)

/-- The segments of parts with their arguments in order. -/
def bind : List Format.Part → List Argument → Output Segment
  | [], _ => .empty
  | .text s :: parts, args => .single (.text s) ++ bind parts args
  | _ :: _, [] => .stop .missingArgument
  | .type :: parts, a :: args => ofTypeArgument a ++ bind parts args
  | .literal :: parts, a :: args => .single (.literal a) ++ bind parts args
  | .string :: parts, a :: args => .single (.string a) ++ bind parts args

/-- The symbols of a segment. -/
def symbols : Segment → List Symbol
  | .type t => t.symbols
  | _ => []

end Segment

/-- Why a code block cannot stand in a file. -/
inductive BlockFault where
  /-- The format has no parts. -/
  | format (fault : Fault)
  /-- There are more or fewer arguments than placeholders. -/
  | count (format : String) (placeholders args : Nat)
  /-- A truth value or number stands for a type. -/
  | notType (arg : Argument)
deriving Repr, Inhabited

/-- The wording of a fault of a code block. -/
def BlockFault.message : BlockFault → String
  | .format fault => fault.message
  | .count source placeholders args =>
    "Format " ++ Text.displayed source ++ " has " ++ toString placeholders ++
      " placeholders but " ++ toString args ++ " arguments were given"
  | .notType arg =>
    match arg.described with
    | .ok s => "%T expects a type, got " ++ s
    | .error fault => fault.message

namespace CodeBlock

/-- The placeholders of parts, in order. -/
def placeholders (parts : List Format.Part) : List Format.Part :=
  parts.filter (·.isPlaceholder)

/-- Says what forbids a block in a file, if anything does. -/
def check (b : CodeBlock) : Except BlockFault Unit := do
  let parts ← (Format.parse b.format).mapError .format
  let slots := placeholders parts
  if slots.length ≠ b.args.length then
    throw (.count b.format slots.length b.args.length)
  match (slots.zip b.args).find? fun pair => pair.1 == .type && !pair.2.isTypeLike with
  | some (_, arg) => throw (.notType arg)
  | none => return ()

/-- The segments of a block, up to the first argument that cannot be read. -/
def segments (b : CodeBlock) : Output Segment :=
  match Format.parse b.format with
  | .ok parts => Segment.bind parts b.args
  | .error fault => .stop fault

/-- The symbols of a block. -/
def symbols (b : CodeBlock) : Output Symbol :=
  b.segments.flatMap fun s => .ofList s.symbols

end CodeBlock

end ModuleAssembly
