import ModuleAssembly.Code
import ModuleAssembly.Text.Integer
import ModuleAssembly.Value.Basic

/-!
# Reading models from documents

A model is read from a `Value` field by field. Reading does not stop at the first error: a
`Validated` value is what was read or every `Issue` found, in the order of the fields, each with the
way to its place. Readers are lenient where nothing is lost: a truth value may be written as a
word, a number as a text, an integer as a float without fraction.
-/

namespace ModuleAssembly

/-- A step on the way to a part of a document. -/
inductive Key where
  /-- Into a field, or into the alternative with a tag. -/
  | field (name : String)
  /-- Into an item of a list. -/
  | index (i : Nat)
deriving DecidableEq, Repr, Inhabited

/-- What is wrong with a part of a document. -/
inductive Cause where
  /-- A required field is not there. -/
  | missing
  /-- Not a text. -/
  | stringType
  /-- Neither a truth value nor anything that can be read as one. -/
  | boolType
  /-- A number or text that writes no truth value. -/
  | boolParsing
  /-- Neither an integer nor anything that can be read as one. -/
  | intType
  /-- A text that writes no integer. -/
  | intParsing
  /-- A float or text that writes an integer beyond what is read. -/
  | intParsingSize
  /-- A float with a fraction in place of an integer. -/
  | intFromFloat
  /-- An infinite float, or none at all, in place of an integer. -/
  | finiteNumber
  /-- Not a float. -/
  | floatType
  /-- Not a list. -/
  | listType
  /-- A list with too few items. -/
  | tooShort
  /-- Not a mapping. -/
  | modelType
  /-- Not the one value that is allowed. -/
  | literal
  /-- Not one of the values that are allowed. -/
  | choice
  /-- Not a mapping where the kind of the model is open. -/
  | modelAttributes
  /-- A mapping without the field that says its kind. -/
  | tagNotFound
  /-- An unknown kind. -/
  | tagInvalid
  /-- A number below the least that is allowed. -/
  | tooSmall
  /-- A type within too many others. -/
  | tooDeep
  /-- A text that should write a symbol. -/
  | badReference (spec : String)
  /-- A code block that does not fit together. -/
  | badBlock (fault : BlockFault)
deriving Repr, Inhabited

/-- The code of a cause. -/
def Cause.code : Cause → String
  | .missing => "missing"
  | .stringType => "string_type"
  | .boolType => "bool_type"
  | .boolParsing => "bool_parsing"
  | .intType => "int_type"
  | .intParsing => "int_parsing"
  | .intParsingSize => "int_parsing_size"
  | .intFromFloat => "int_from_float"
  | .finiteNumber => "finite_number"
  | .floatType => "float_type"
  | .listType => "list_type"
  | .tooShort => "too_short"
  | .modelType => "model_type"
  | .literal => "literal_error"
  | .choice => "enum"
  | .modelAttributes => "model_attributes_type"
  | .tagNotFound => "union_tag_not_found"
  | .tagInvalid => "union_tag_invalid"
  | .tooSmall => "greater_than_equal"
  | .tooDeep => "recursion_depth_exceeded"
  | .badReference _ => "value_error"
  | .badBlock _ => "value_error"

/-- The wording of a cause that has one of its own. -/
def Cause.message? : Cause → Option String
  | .badReference spec => some (Fault.badReference spec).message
  | .badBlock fault => some fault.message
  | _ => none

/-- An error and the way to its place. -/
structure Issue where
  /-- The steps from the document to the place. -/
  place : List Key
  /-- What is wrong there. -/
  cause : Cause
deriving Repr, Inhabited

/-- What was read, or all that is wrong. -/
inductive Validated (α : Type) where
  /-- All went well. -/
  | valid (value : α)
  /-- All that is wrong, in order. -/
  | invalid (issues : List Issue)
deriving Repr

namespace Validated

variable {α β : Type}

/-- An error at this place. -/
def fail (cause : Cause) : Validated α :=
  .invalid [⟨[], cause⟩]

/-- Applies a function to what was read. -/
def map (f : α → β) : Validated α → Validated β
  | .valid a => .valid (f a)
  | .invalid issues => .invalid issues

/-- Applies a function that was read to an argument that was read; the errors of both count. -/
def apply (f : Validated (α → β)) (a : Validated α) : Validated β :=
  match f, a with
  | .valid f, .valid a => .valid (f a)
  | .valid _, .invalid issues => .invalid issues
  | .invalid issues, .valid _ => .invalid issues
  | .invalid issues, .invalid more => .invalid (issues ++ more)

instance : Applicative Validated where
  pure := .valid
  map := map
  seq f a := apply f (a ())

/-- Goes on with what was read, if all went well. -/
def andThen (a : Validated α) (f : α → Validated β) : Validated β :=
  match a with
  | .valid a => f a
  | .invalid issues => .invalid issues

/-- Reads what lies one step further: its errors are placed after the step. -/
def under (key : Key) : Validated α → Validated α
  | .valid a => .valid a
  | .invalid issues => .invalid (issues.map fun issue => { issue with place := key :: issue.place })

/-- Reads what lies in a field. -/
def inField (name : String) (a : Validated α) : Validated α :=
  a.under (.field name)

/-- Items that were read one by one, the first of which has the index `start`. -/
def itemsFrom (start : Nat) : List (Validated α) → Validated (List α)
  | [] => .valid []
  | item :: items => apply (map List.cons (item.under (.index start))) (itemsFrom (start + 1) items)

/-- The items of a list that were read one by one. -/
def items (results : List (Validated α)) : Validated (List α) :=
  itemsFrom 0 results

/-- What was read, if all went well. -/
def toOption : Validated α → Option α
  | .valid a => some a
  | .invalid _ => none

end Validated

open Validated (fail)

/-! ## Fields -/

namespace Entries

variable {α : Type}

/-- Reads a required field. -/
def required (entries : Entries) (name : String) (read : Value → Validated α) : Validated α :=
  ((entries.field? name).elim (fail .missing) read).inField name

/-- Reads a field that has a default. -/
def withDefault (entries : Entries) (name : String) (read : Value → Validated α) (default : α) :
    Validated α :=
  (entries.field? name).elim (.valid default) fun v => (read v).inField name

/-- Checks the field that says the kind of a model; it may be left out. -/
def checkKind (entries : Entries) (kind : String) : Validated Unit :=
  entries.withDefault "kind"
    (fun v =>
      match v with
      | .text s => if s = kind then .valid () else fail .literal
      | _ => fail .literal)
    ()

end Entries

namespace Value

variable {α : Type}

/-! ## Lists and models -/

/-- Reads a list. -/
def readList (read : Value → Validated α) : Value → Validated (List α)
  | .list values => Validated.items (values.map read)
  | _ => fail .listType

/-- Reads a value that may be null. -/
def readOptional (read : Value → Validated α) : Value → Validated (Option α)
  | .null => .valid none
  | v => (read v).map some

/-- Reads the fields of a model. -/
def readModel (read : Entries → Validated α) : Value → Validated α
  | .mapping entries => read entries
  | _ => fail .modelType

/-- Reads one of several models, by the field that says its kind; `read` gives the reader of a
kind. The kind is a step of the way to the fields. -/
def readTagged (read : String → Option (Entries → Validated α)) : Value → Validated α
  | .mapping entries =>
    match Entries.field? entries "kind" with
    | none => fail .tagNotFound
    | some (.text kind) =>
      match read kind with
      | some read => (read entries).inField kind
      | none => fail .tagInvalid
    | some _ => fail .tagInvalid
  | _ => fail .modelAttributes

/-! ## Scalars -/

/-- Reads a text. -/
def readText : Value → Validated String
  | .text s => .valid s
  | _ => fail .stringType

/-- The words for false, in lower case. -/
def falseWords : List String :=
  ["0", "off", "f", "false", "n", "no"]

/-- The words for true, in lower case. -/
def trueWords : List String :=
  ["1", "on", "t", "true", "y", "yes"]

/-- The truth value of an integer. -/
def boolOfInt (n : Int) : Validated Bool :=
  if n = 0 then .valid false
  else if n = 1 then .valid true
  else fail .boolParsing

/-- Whether an integer lies strictly between the ends of the sixty-four bit integers. -/
def isNarrow (n : Int) : Bool :=
  -0x8000000000000000 < n && n < 0x8000000000000000

/-- Reads a truth value. -/
def readBool : Value → Validated Bool
  | .bool b => .valid b
  | .int n => if isNarrow n || n == -0x8000000000000000 then boolOfInt n else fail .boolType
  | .float x =>
    match x.toInt? with
    | some n => if isNarrow n then boolOfInt n else fail .boolType
    | none => fail .boolType
  | .text s =>
    let word := s.toLower
    if falseWords.contains word then .valid false
    else if trueWords.contains word then .valid true
    else fail .boolParsing
  | _ => fail .boolType

/-- The integer that a float equals, if it has sixty-four bits. -/
def intOfFloat (x : Binary64) : Validated Int :=
  if !x.isFinite then fail .finiteNumber
  else
    match x.toInt? with
    | some n => if isNarrow n then .valid n else fail .intParsingSize
    | none => fail .intFromFloat

/-- The integer that a text writes. -/
def intOfText (s : String) : Validated Int :=
  match Text.readInteger s with
  | .integer n => .valid n
  | .tooLong => fail .intParsingSize
  | .malformed => fail .intParsing

/-- Reads an integer. -/
def readInt : Value → Validated Int
  | .bool b => .valid (if b then 1 else 0)
  | .int n => .valid n
  | .float x => intOfFloat x
  | .text s => intOfText s
  | _ => fail .intType

end Value

end ModuleAssembly
