import ModuleAssembly.Association
import ModuleAssembly.Binary64.Basic

/-!
# Document values

A `Value` is what a model or configuration document holds: scalars, lists, and mappings from
scalars to values. The readers of documents build mappings with `Association.insert`, so that a
repeated key stands at its first place with its last value.
-/

namespace ModuleAssembly

/-- A value without parts. -/
inductive Scalar where
  /-- No value. -/
  | null
  /-- A truth value. -/
  | bool (value : Bool)
  /-- An integer. -/
  | int (value : Int)
  /-- A floating point number. -/
  | float (value : Binary64)
  /-- A text. -/
  | text (value : String)
  /-- A date, or a date and a time, as it is written. -/
  | moment (text : String)
deriving DecidableEq, Repr, Inhabited

/-- What a document holds. -/
inductive Value where
  /-- A value without parts. -/
  | scalar (value : Scalar)
  /-- A list of values. -/
  | list (items : List Value)
  /-- A mapping, by its entries in order. -/
  | mapping (entries : List (Scalar × Value))
deriving Repr, Inhabited

namespace Value

/-- No value. -/
@[match_pattern] abbrev null : Value := .scalar .null

/-- A truth value. -/
@[match_pattern] abbrev bool (value : Bool) : Value := .scalar (.bool value)

/-- An integer. -/
@[match_pattern] abbrev int (value : Int) : Value := .scalar (.int value)

/-- A floating point number. -/
@[match_pattern] abbrev float (value : Binary64) : Value := .scalar (.float value)

/-- A text. -/
@[match_pattern] abbrev text (value : String) : Value := .scalar (.text value)

/-- The mapping with named fields. -/
def object (fields : List (String × Value)) : Value :=
  .mapping (fields.map fun field => (.text field.1, field.2))

end Value

/-- The entries of a mapping. -/
abbrev Entries := List (Scalar × Value)

/-- The value of a named field. -/
def Entries.field? (entries : Entries) (name : String) : Option Value :=
  (List.find? (fun entry => entry.1 == .text name) entries).map (·.2)

end ModuleAssembly
