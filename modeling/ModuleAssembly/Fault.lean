import ModuleAssembly.Text.Displayed
import ModuleAssembly.Text.Integer

/-!
# Faults

`Fault` lists the causes for which a file cannot be generated or assembled, and `Fault.message`
words them.
-/

namespace ModuleAssembly

/-- Why a file cannot be generated or assembled. -/
inductive Fault where
  /-- A text that should be `Name@module` lacks a part. -/
  | badReference (spec : String)
  /-- A format ends with a single percent sign. -/
  | danglingPercent (format : String)
  /-- A percent sign in a format is followed by a character that is no placeholder. -/
  | unknownPlaceholder (mark : Char) (format : String)
  /-- A code block has fewer arguments than placeholders. -/
  | missingArgument
  /-- The empty path has no relative form. -/
  | emptyPath
  /-- An integer has more digits than are written. -/
  | integerTooLong
  /-- The text of a type takes more nested calls than there is room for. -/
  | typeTooDeep
  /-- What should be a declaration is something else. -/
  | unhandledDeclaration (kind : String)
  /-- What should be a type expression is something else. -/
  | unhandledType (kind : String)
  /-- A descriptor refers to a type that no file declares. -/
  | unknownType (name : String)
  /-- A descriptor refers to an element that a list does not have. -/
  | indexOutOfRange
deriving DecidableEq, Repr, Inhabited

namespace Fault

/-- The wording of a fault. -/
def message : Fault → String
  | badReference spec => "Expected 'Name@module', got " ++ Text.displayed spec
  | danglingPercent format => "Dangling '%' at end of format " ++ Text.displayed format
  | unknownPlaceholder mark format =>
    "Unknown placeholder '%" ++ mark.toString ++ "' in format " ++ Text.displayed format
  | missingArgument => "A code block lacks an argument"
  | emptyPath => "no path specified"
  | integerTooLong =>
    "Exceeds the limit (" ++ toString Text.longestInteger ++ " digits) for integer string " ++
      "conversion; use sys.set_int_max_str_digits() to increase the limit"
  | typeTooDeep => "maximum recursion depth exceeded"
  | unhandledDeclaration kind => "Unhandled declaration kind: " ++ kind
  | unhandledType kind => "Unhandled type expression: " ++ kind
  | unknownType name => "Unknown type referenced: " ++ name
  | indexOutOfRange => "list index out of range"

end Fault

end ModuleAssembly
