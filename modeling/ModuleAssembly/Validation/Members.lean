import ModuleAssembly.Declaration
import ModuleAssembly.Validation.Types

/-!
# Files in documents

Readers for everything that a file model is made of, and writers of the documents that they read
back. A document may leave out every field with a default; a written one has all fields, types in
their long form, and the kind of each part that has one. `FileModel.ofValue` and
`FileModel.toValue` are the two ends.
-/

namespace ModuleAssembly

open Validated (fail)

/-- The document of a value that may be missing. -/
def optionalValue {α : Type} (toValue : α → Value) : Option α → Value
  | some a => toValue a
  | none => .null

/-- Reads a field that may be null or left out. -/
def Entries.optional {α : Type} (entries : Entries) (name : String) (read : Value → Validated α) :
    Validated (Option α) :=
  entries.withDefault name (Value.readOptional read) none

/-- Reads a truth value that may be left out. -/
def Entries.flag (entries : Entries) (name : String) (default : Bool) : Validated Bool :=
  entries.withDefault name Value.readBool default

/-- Reads a list that may be left out. -/
def Entries.list {α : Type} (entries : Entries) (name : String) (read : Value → Validated α) :
    Validated (List α) :=
  entries.withDefault name (Value.readList read) []

/-! ## Code blocks -/

namespace Argument

/-- The errors of a value that is no argument: those of each form it could have. -/
def noForm (issues : List Issue) : Validated Argument :=
  .invalid <|
    issues.map (fun issue => { issue with place := .field "type" :: issue.place }) ++
      [⟨[.field "str"], .stringType⟩, ⟨[.field "int"], .intType⟩,
        ⟨[.field "float"], .floatType⟩, ⟨[.field "bool"], .boolType⟩]

/-- Reads an argument. A text stays a text, also where it stands for a type. -/
def ofValue (v : Value) : Validated Argument :=
  match v with
  | .text s => .valid (.text s)
  | .int n => .valid (.int n)
  | .float x => .valid (.float x)
  | .bool b => .valid (.bool b)
  | v =>
    match TypeExpr.ofValue v with
    | .valid t => .valid (.type t)
    | .invalid issues => noForm issues

/-- The document of an argument. -/
def toValue : Argument → Value
  | .type t => t.toValue
  | .text s => .text s
  | .int n => .int n
  | .float x => .float x
  | .bool b => .bool b

end Argument

namespace CodeBlock

/-- A block that satisfies what is asked of the blocks of a file. -/
def checked (b : CodeBlock) : Validated CodeBlock :=
  match b.check with
  | .ok _ => .valid b
  | .error fault => fail (.badBlock fault)

/-- Reads the fields of a code block. -/
def ofEntries (entries : Entries) : Validated CodeBlock :=
  ((fun _ format args => { format, args : CodeBlock }) <$> entries.checkKind "code_block"
    <*> entries.required "format" Value.readText
    <*> entries.list "args" Argument.ofValue).andThen checked

/-- Reads a code block. -/
def ofValue (v : Value) : Validated CodeBlock :=
  v.readModel ofEntries

/-- The document of a code block. -/
def toValue (b : CodeBlock) : Value :=
  .object [("kind", .text "code_block"), ("format", .text b.format),
    ("args", .list (b.args.map Argument.toValue))]

end CodeBlock

/-! ## Parts of declarations -/

namespace Property

/-- Reads the fields of a property. -/
def ofEntries (entries : Entries) : Validated Property :=
  (fun _ name type isOptional isReadonly isStatic initial doc exported =>
      { name, type, isOptional, isReadonly, isStatic, initial, doc, exported : Property })
    <$> entries.checkKind "property"
    <*> entries.required "name" Value.readText
    <*> entries.optional "type" TypeExpr.ofValue
    <*> entries.flag "optional" false
    <*> entries.flag "readonly" false
    <*> entries.flag "static" false
    <*> entries.optional "initializer" CodeBlock.ofValue
    <*> entries.optional "doc" Value.readText
    <*> entries.flag "exported" true

/-- Reads a property. -/
def ofValue (v : Value) : Validated Property :=
  v.readModel ofEntries

/-- The document of a property. -/
def toValue (p : Property) : Value :=
  .object [("kind", .text "property"), ("name", .text p.name),
    ("type", optionalValue TypeExpr.toValue p.type), ("optional", .bool p.isOptional),
    ("readonly", .bool p.isReadonly), ("static", .bool p.isStatic),
    ("initializer", optionalValue CodeBlock.toValue p.initial),
    ("doc", optionalValue .text p.doc), ("exported", .bool p.exported)]

end Property

namespace Parameter

/-- Reads the fields of a parameter. -/
def ofEntries (entries : Entries) : Validated Parameter :=
  (fun name type isOptional default => { name, type, isOptional, default : Parameter })
    <$> entries.required "name" Value.readText
    <*> entries.optional "type" TypeExpr.ofValue
    <*> entries.flag "optional" false
    <*> entries.optional "default" Value.readText

/-- Reads a parameter. -/
def ofValue (v : Value) : Validated Parameter :=
  v.readModel ofEntries

/-- The document of a parameter. -/
def toValue (p : Parameter) : Value :=
  .object [("name", .text p.name), ("type", optionalValue TypeExpr.toValue p.type),
    ("optional", .bool p.isOptional), ("default", optionalValue .text p.default)]

end Parameter

namespace Function

/-- Reads the fields of a function. -/
def ofEntries (entries : Entries) : Validated Function :=
  (fun _ name parameters result body isAsync doc exported =>
      { name, parameters, result, body, isAsync, doc, exported : Function })
    <$> entries.checkKind "function"
    <*> entries.required "name" Value.readText
    <*> entries.list "parameters" Parameter.ofValue
    <*> entries.optional "return_type" TypeExpr.ofValue
    <*> entries.optional "body" CodeBlock.ofValue
    <*> entries.flag "is_async" false
    <*> entries.optional "doc" Value.readText
    <*> entries.flag "exported" true

/-- Reads a function. -/
def ofValue (v : Value) : Validated Function :=
  v.readModel ofEntries

/-- The document of a function. -/
def toValue (f : Function) : Value :=
  .object [("kind", .text "function"), ("name", .text f.name),
    ("parameters", .list (f.parameters.map Parameter.toValue)),
    ("return_type", optionalValue TypeExpr.toValue f.result),
    ("body", optionalValue CodeBlock.toValue f.body), ("is_async", .bool f.isAsync),
    ("doc", optionalValue .text f.doc), ("exported", .bool f.exported)]

end Function

namespace ConstantValue

/-- Reads the value of a constant: a text stays a text, and all else has to be an integer. If it is
none, the errors of both forms count. -/
def ofValue (v : Value) : Validated ConstantValue :=
  match v with
  | .text s => .valid (.text s)
  | v =>
    match v.readInt with
    | .valid n => .valid (.int n)
    | .invalid issues =>
      .invalid <|
        issues.map (fun issue => { issue with place := .field "int" :: issue.place }) ++
          [⟨[.field "str"], .stringType⟩]

/-- The document of the value of a constant. -/
def toValue : ConstantValue → Value
  | .int n => .int n
  | .text s => .text s

end ConstantValue

namespace Constant

/-- Reads the fields of a constant. -/
def ofEntries (entries : Entries) : Validated Constant :=
  (fun name value doc => { name, value, doc : Constant })
    <$> entries.required "name" Value.readText
    <*> entries.optional "value" ConstantValue.ofValue
    <*> entries.optional "doc" Value.readText

/-- Reads a constant. -/
def ofValue (v : Value) : Validated Constant :=
  v.readModel ofEntries

/-- The document of a constant. -/
def toValue (c : Constant) : Value :=
  .object [("name", .text c.name), ("value", optionalValue ConstantValue.toValue c.value),
    ("doc", optionalValue .text c.doc)]

end Constant

/-! ## Declarations -/

namespace Interface

/-- Reads the fields of an interface. -/
def ofEntries (entries : Entries) : Validated Interface :=
  (fun _ name bases properties methods doc exported =>
      { name, bases, properties, methods, doc, exported : Interface })
    <$> entries.checkKind "interface"
    <*> entries.required "name" Value.readText
    <*> entries.list "extends" TypeExpr.ofValue
    <*> entries.list "properties" Property.ofValue
    <*> entries.list "methods" Function.ofValue
    <*> entries.optional "doc" Value.readText
    <*> entries.flag "exported" true

/-- The document of an interface. -/
def toValue (d : Interface) : Value :=
  .object [("kind", .text "interface"), ("name", .text d.name),
    ("extends", .list (d.bases.map TypeExpr.toValue)),
    ("properties", .list (d.properties.map Property.toValue)),
    ("methods", .list (d.methods.map Function.toValue)), ("doc", optionalValue .text d.doc),
    ("exported", .bool d.exported)]

end Interface

namespace Class

/-- Reads the fields of a class. -/
def ofEntries (entries : Entries) : Validated Class :=
  (fun _ name base interfaces properties methods doc exported isAbstract =>
      { name, base, interfaces, properties, methods, doc, exported, isAbstract : Class })
    <$> entries.checkKind "class"
    <*> entries.required "name" Value.readText
    <*> entries.optional "extends" TypeExpr.ofValue
    <*> entries.list "implements" TypeExpr.ofValue
    <*> entries.list "properties" Property.ofValue
    <*> entries.list "methods" Function.ofValue
    <*> entries.optional "doc" Value.readText
    <*> entries.flag "exported" true
    <*> entries.flag "abstract" false

/-- The document of a class. -/
def toValue (d : Class) : Value :=
  .object [("kind", .text "class"), ("name", .text d.name),
    ("extends", optionalValue TypeExpr.toValue d.base),
    ("implements", .list (d.interfaces.map TypeExpr.toValue)),
    ("properties", .list (d.properties.map Property.toValue)),
    ("methods", .list (d.methods.map Function.toValue)), ("doc", optionalValue .text d.doc),
    ("exported", .bool d.exported), ("abstract", .bool d.isAbstract)]

end Class

namespace Enumeration

/-- Reads the fields of an enumeration. -/
def ofEntries (entries : Entries) : Validated Enumeration :=
  (fun _ name constants doc exported isConst =>
      { name, constants, doc, exported, isConst : Enumeration })
    <$> entries.checkKind "enum"
    <*> entries.required "name" Value.readText
    <*> entries.list "constants" Constant.ofValue
    <*> entries.optional "doc" Value.readText
    <*> entries.flag "exported" true
    <*> entries.flag "const" false

/-- The document of an enumeration. -/
def toValue (d : Enumeration) : Value :=
  .object [("kind", .text "enum"), ("name", .text d.name),
    ("constants", .list (d.constants.map Constant.toValue)), ("doc", optionalValue .text d.doc),
    ("exported", .bool d.exported), ("const", .bool d.isConst)]

end Enumeration

namespace TypeAlias

/-- Reads the fields of a type alias. -/
def ofEntries (entries : Entries) : Validated TypeAlias :=
  (fun _ name type doc exported => { name, type, doc, exported : TypeAlias })
    <$> entries.checkKind "type_alias"
    <*> entries.required "name" Value.readText
    <*> entries.required "type" TypeExpr.ofValue
    <*> entries.optional "doc" Value.readText
    <*> entries.flag "exported" true

/-- The document of a type alias. -/
def toValue (d : TypeAlias) : Value :=
  .object [("kind", .text "type_alias"), ("name", .text d.name), ("type", d.type.toValue),
    ("doc", optionalValue .text d.doc), ("exported", .bool d.exported)]

end TypeAlias

/-- The document of a declaration. -/
def Declaration.toValue : Declaration → Value
  | .interface d => d.toValue
  | .classType d => d.toValue
  | .enumeration d => d.toValue
  | .function d => d.toValue
  | .constant d => d.toValue
  | .typeAlias d => d.toValue

/-! ## Members and files -/

namespace Member

/-- The reader of the fields of a member of a kind. -/
def reader? : String → Option (Entries → Validated Member)
  | "interface" => some fun entries => (Interface.ofEntries entries).map (.declaration ∘ .interface)
  | "class" => some fun entries => (Class.ofEntries entries).map (.declaration ∘ .classType)
  | "enum" => some fun entries => (Enumeration.ofEntries entries).map (.declaration ∘ .enumeration)
  | "function" => some fun entries => (Function.ofEntries entries).map (.declaration ∘ .function)
  | "property" => some fun entries => (Property.ofEntries entries).map (.declaration ∘ .constant)
  | "type_alias" =>
    some fun entries => (TypeAlias.ofEntries entries).map (.declaration ∘ .typeAlias)
  | "code_block" => some fun entries => (CodeBlock.ofEntries entries).map .code
  | _ => none

/-- Reads a member. -/
def ofValue (v : Value) : Validated Member :=
  v.readTagged reader?

/-- The document of a member. -/
def toValue : Member → Value
  | .declaration d => d.toValue
  | .code b => b.toValue

end Member

namespace FileModel

/-- Reads the fields of a file. -/
def ofEntries (entries : Entries) : Validated FileModel :=
  (fun path comment members => { path, comment, members : FileModel })
    <$> entries.required "path" Value.readText
    <*> entries.optional "comment" Value.readText
    <*> entries.list "members" Member.ofValue

/-- Reads a file. -/
def ofValue (v : Value) : Validated FileModel :=
  v.readModel ofEntries

/-- The document of a file. -/
def toValue (f : FileModel) : Value :=
  .object [("path", .text f.path), ("comment", optionalValue .text f.comment),
    ("members", .list (f.members.map Member.toValue))]

end FileModel

end ModuleAssembly
