import ModuleAssembly.Validation.Nesting

/-!
# Type expressions in documents

A type is written as a mapping whose `kind` tells what it is, or in short as a text: with an `@` a
symbol, otherwise a bare name. `TypeExpr.ofValue` reads both forms at every depth up to the limit
of a `Nesting`, and `TypeExpr.toValue` writes the long form.

Whether a field holds a type or a list of types, and how deep it lies, is known only from the kind
of the mapping around it. So each field comes with both its readings (`TypeField`), and the kind
selects one and gives it the place.
-/

namespace ModuleAssembly

open Validated (fail)

/-- A field of a mapping that may write a type. -/
structure TypeField where
  /-- The field as it is written. -/
  value : Value
  /-- The field read as a type at a place. -/
  asType : Nesting → Validated TypeExpr
  /-- The field read as a list of types at a place. -/
  asTypes : Nesting → Validated (List TypeExpr)

namespace TypeField

/-- The field of a name. -/
def find? (fields : List (Scalar × TypeField)) (name : String) : Option TypeField :=
  (fields.find? fun field => field.1 == .text name).map (·.2)

/-- A required field, read by one of its readings. -/
def required {α : Type} (fields : List (Scalar × TypeField)) (name : String)
    (read : TypeField → Validated α) : Validated α :=
  ((find? fields name).elim (fail .missing) read).inField name

/-- The text of a field. -/
def asText (field : TypeField) : Validated String :=
  field.value.readText

end TypeField

namespace TypeExpr

/-- The kind of a type in a document. -/
def kind : TypeExpr → String
  | .symbol _ => "symbol"
  | .named _ => "named"
  | .union _ _ => "union"
  | .array _ => "array"
  | .generic _ _ => "generic"

/-- Reads the short form of a type at a place. -/
def ofText (n : Nesting) (s : String) : Validated TypeExpr :=
  (ofShorthand? s).elim (fail (.badReference s)) fun t =>
    (n.simple.allow (.valid t)).inField t.kind

/-- A union of at least one choice. -/
def ofChoices : List TypeExpr → Validated TypeExpr
  | [] => (fail .tooShort : Validated TypeExpr).inField "choices"
  | first :: others => .valid (.union first others)

/-- Reads the fields of a type of a kind at a place, if there is such a kind. -/
def ofKind? (n : Nesting) (fields : List (Scalar × TypeField)) :
    String → Option (Validated TypeExpr)
  | "symbol" => some <| n.simple.allow <|
    (fun name module => .symbol ⟨name, module⟩)
      <$> TypeField.required fields "display_name" (·.asText)
      <*> TypeField.required fields "module_path" (·.asText)
  | "named" => some <| n.simple.allow <| named <$> TypeField.required fields "name" (·.asText)
  | "union" =>
    let inside := n.compound .union
    some <| inside.allow <|
      (TypeField.required fields "choices" (·.asTypes inside)).andThen ofChoices
  | "array" =>
    let inside := n.compound .array
    some <| inside.allow <| array <$> TypeField.required fields "element" (·.asType inside)
  | "generic" =>
    let inside := n.compound .generic
    some <| inside.allow <|
      generic <$> TypeField.required fields "base" (·.asType inside)
        <*> (TypeField.find? fields "args").elim (.valid []) fun field =>
          (field.asTypes inside).inField "args"
  | _ => none

/-- Reads the fields of a type at a place by its kind. -/
def ofFields (n : Nesting) (fields : List (Scalar × TypeField)) : Validated TypeExpr :=
  match TypeField.find? fields "kind" with
  | none => fail .tagNotFound
  | some ⟨.text kind, _, _⟩ =>
    match ofKind? n fields kind with
    | some result => result.inField kind
    | none => fail .tagInvalid
  | some _ => fail .tagInvalid

mutual

/-- Reads a type at a place. -/
def ofValueAt (n : Nesting) : Value → Validated TypeExpr
  | .scalar (.text s) => ofText n s
  | .mapping entries => ofFields n (fieldsOf entries)
  | _ => fail .modelAttributes
termination_by structural v => v

/-- Reads a list of types at a place. -/
def listOfValueAt (n : Nesting) : Value → Validated (List TypeExpr)
  | .list values => .items (eachOfAt n values)
  | _ => fail .listType
termination_by structural v => v

/-- Reads each of several types at a place. -/
def eachOfAt (n : Nesting) : List Value → List (Validated TypeExpr)
  | [] => []
  | v :: vs => ofValueAt n v :: eachOfAt n vs
termination_by structural vs => vs

/-- Reads the entries of a mapping as fields of a type. -/
def fieldsOf : List (Scalar × Value) → List (Scalar × TypeField)
  | [] => []
  | entry :: entries => fieldOf entry :: fieldsOf entries
termination_by structural entries => entries

/-- Reads an entry of a mapping as a field of a type. -/
def fieldOf : Scalar × Value → Scalar × TypeField
  | (key, v) => (key, ⟨v, fun n => ofValueAt n v, fun n => listOfValueAt n v⟩)
termination_by structural entry => entry

end

/-- Reads a type that lies in no other. -/
def ofValue (v : Value) : Validated TypeExpr :=
  ofValueAt .outermost v

end TypeExpr

/-- Reads the fields of a symbol. -/
def Symbol.ofEntries (entries : Entries) : Validated Symbol :=
  (fun _ name module => { name, module : Symbol }) <$> entries.checkKind "symbol"
    <*> entries.required "display_name" Value.readText
    <*> entries.required "module_path" Value.readText

/-- Reads a symbol in its long form. -/
def Symbol.ofValue (v : Value) : Validated Symbol :=
  v.readModel ofEntries

namespace TypeExpr

mutual

/-- The long form of a type. -/
def toValue : TypeExpr → Value
  | .symbol s =>
    .object [("kind", .text "symbol"), ("display_name", .text s.name),
      ("module_path", .text s.module)]
  | .named name => .object [("kind", .text "named"), ("name", .text name)]
  | .union first others =>
    .object [("kind", .text "union"), ("choices", .list (first.toValue :: toValues others))]
  | .array element => .object [("kind", .text "array"), ("element", element.toValue)]
  | .generic base args =>
    .object [("kind", .text "generic"), ("base", base.toValue), ("args", .list (toValues args))]

/-- The long forms of several types. -/
def toValues : List TypeExpr → List Value
  | [] => []
  | t :: ts => t.toValue :: toValues ts

end

end TypeExpr

end ModuleAssembly
