import ModuleAssembly.Config
import ModuleAssembly.Declaration
import ModuleAssembly.Generation.TypeMap

/-!
# Files generated from descriptors

`Generation.file` builds the file model of a descriptor's file: the package as a constant, an
interface for each message and each service, and an enumeration for each enumeration. The types of
fields come from the type map. Entries of map fields are not declared; a field whose type is such an
entry, declared inside the same message, becomes a record of its key and value.

A file with a field of sixty-four bits that is typed by the `long` package ends with a code block
that introduces that package to the runtime.
-/

namespace ModuleAssembly.Generation

open Descriptor (Field FieldType Enum Message Method Service File)
open TypeMap (Scope)

/-! ## Types of fields -/

/-- The type of long integers. -/
def longSymbol : Symbol := ⟨"Long", "long"⟩

/-- The type of streams. -/
def observableSymbol : Symbol := ⟨"Observable", "rxjs"⟩

/-- The utilities of the runtime. -/
def utilSymbol : Symbol := ⟨"util", "protobufjs/minimal"⟩

/-- What makes the runtime take up new settings. -/
def configureSymbol : Symbol := ⟨"configure", "protobufjs/minimal"⟩

/-- The full name of time stamps. -/
def timestamp : String := ".google.protobuf.Timestamp"

/-- The name that a field type has in generated code, if it has one of its own. -/
def scalarName? : FieldType → Option String
  | .double | .float | .int32 | .uint32 | .sint32 | .fixed32 | .sfixed32 => some "number"
  | .bool => some "boolean"
  | .string => some "string"
  | .bytes => some "Uint8Array"
  | _ => none

/-- Whether a field type is an integer of sixty-four bits. -/
def isLong : FieldType → Bool
  | .int64 | .uint64 | .sint64 | .fixed64 | .sfixed64 => true
  | _ => false

/-- The type of long integers under the options. -/
def longType : LongType → TypeExpr
  | .long => .symbol longSymbol
  | .string => .named "string"
  | .number => .named "number"

/-- The symbol of a full name. -/
def lookup (types : TypeMap) (fullName : String) : Except Fault Symbol :=
  match types.find? fullName with
  | some s => .ok s
  | none => .error (.unknownType fullName)

/-- The type of a field, not counting that it may be repeated. -/
def fieldType (types : TypeMap) (options : GenerationOptions) (f : Field) :
    Except Fault TypeExpr :=
  match scalarName? f.type with
  | some name => .ok (.named name)
  | none =>
    if isLong f.type then .ok (longType options.longType)
    else if f.typeName = timestamp ∧ options.useDate then .ok (.named "Date")
    else (lookup types f.typeName).map .symbol

/-- The type of the keys of a map. -/
def keyType (f : Field) : TypeExpr :=
  if scalarName? f.type = some "number" then .named "number" else .named "string"

/-! ## Messages and enumerations -/

/-- The map entries declared inside a message, by their full names. -/
def mapEntries (fullName : String) (nested : List Message) : List (String × Message) :=
  Association.ofList <|
    (nested.filter (·.mapEntry)).map fun m => (fullName ++ "." ++ m.name, m)

/-- What a field of a message holds. -/
inductive Slot where
  /-- A value, or several. -/
  | plain (field : Field)
  /-- A map, by the fields of its entries. -/
  | map (field key value : Field)
deriving Repr, Inhabited

/-- The field whose type decides what a slot holds. -/
def Slot.typed : Slot → Field
  | .plain f => f
  | .map _ _ value => value

/-- The slot of a field, among the map entries of its message. -/
def slot (entries : List (String × Message)) (f : Field) : Except Fault Slot :=
  match entries.lookup f.typeName with
  | some entry =>
    match entry.fields with
    | key :: value :: _ => .ok (.map f key value)
    | _ => .error .indexOutOfRange
  | none => .ok (.plain f)

/-- The name of the property of a field. -/
def propertyName (options : GenerationOptions) (f : Field) : String :=
  if options.snakeToCamel then snakeToCamel f.name else f.name

/-- Whether the property of a field may be left out. -/
def isOptional (options : GenerationOptions) (f : Field) : Bool :=
  f.label != .repeated && (f.proto3Optional || options.useOptionals || f.oneofIndex.isSome)

/-- The property of a slot. -/
def slotProperty (types : TypeMap) (options : GenerationOptions) : Slot → Except Fault Property
  | .map f key value => do
    let valueType ← fieldType types options value
    let record : TypeExpr := .generic (.named "Record") [keyType key, valueType]
    return { name := propertyName options f, type := some record }
  | .plain f => do
    let type ← fieldType types options f
    let type := if f.label = .repeated then .array type else type
    return { name := propertyName options f, type := some type, isOptional := isOptional options f }

/-- The property of a field, among the map entries of its message. -/
def fieldProperty (types : TypeMap) (options : GenerationOptions)
    (entries : List (String × Message)) (f : Field) : Except Fault Property := do
  slotProperty types options (← slot entries f)

/-- The value of a constant with a name and a number. -/
def constantValue (options : GenerationOptions) (name : String) (number : Int) : ConstantValue :=
  if options.stringEnums then .text name else .int number

/-- The name of the constant for unknown values. -/
def unrecognized : String := "UNRECOGNIZED"

/-- The enumeration of a descriptor. -/
def enumeration (options : GenerationOptions) (s : Scope) (e : Enum) : Declaration :=
  let constant (name : String) (number : Int) : Constant :=
    { name, value := some (constantValue options name number) }
  .enumeration
    { name := s.generatedName e.name
      constants :=
        (e.values.map fun v => constant v.name v.number.toInt) ++
          (if options.addUnrecognized then [constant unrecognized (-1)] else []) }

/-- The interface of a message. -/
def interface (types : TypeMap) (options : GenerationOptions) (s : Scope) (name : String)
    (fields : List Field) (nested : List Message) : Except Fault Declaration := do
  let properties ← fields.mapM (fieldProperty types options (mapEntries (s.fullName name) nested))
  return .interface { name := s.generatedName name, properties }

mutual

/-- The declarations of a message: its interface, then what is declared inside it. -/
def message (types : TypeMap) (options : GenerationOptions) (s : Scope) :
    Message → Except Fault (List Declaration)
  | ⟨name, fields, nested, enums, mapEntry⟩ =>
    if mapEntry then .ok []
    else do
      let own ← interface types options s name fields nested
      let inner ← messages types options (s.inside name) nested
      return own :: (enums.map (enumeration options (s.inside name)) ++ inner)

/-- The declarations of several messages. -/
def messages (types : TypeMap) (options : GenerationOptions) (s : Scope) :
    List Message → Except Fault (List Declaration)
  | [] => .ok []
  | m :: ms => do
    let first ← message types options s m
    let others ← messages types options s ms
    return first ++ others

end

mutual

/-- The fields that are typed for a message and for the messages inside it. -/
def typedFields (s : Scope) : Message → List Field
  | ⟨name, fields, nested, _, mapEntry⟩ =>
    if mapEntry then []
    else
      let entries := mapEntries (s.fullName name) nested
      fields.map (fun f => ((slot entries f).toOption.map Slot.typed).getD f) ++
        typedFieldsOfAll (s.inside name) nested

/-- The fields that are typed for several messages. -/
def typedFieldsOfAll (s : Scope) : List Message → List Field
  | [] => []
  | m :: ms => typedFields s m ++ typedFieldsOfAll s ms

end

/-! ## Services -/

/-- The method of a descriptor. -/
def method (types : TypeMap) (options : GenerationOptions) (m : Method) :
    Except Fault Function := do
  let output ← lookup types m.outputType
  let input ← lookup types m.inputType
  let wrapper : TypeExpr :=
    if options.returnObservable || m.serverStreaming then .symbol observableSymbol
    else .named "Promise"
  return {
    name := if options.lowerCaseMethods then lowerFirst m.name else m.name
    parameters := [{ name := "request", type := some (.symbol input) }]
    result := some (.generic wrapper [.symbol output]) }

/-- The interface of a service. -/
def service (types : TypeMap) (options : GenerationOptions) (s : Service) :
    Except Fault Declaration := do
  let methods ← s.methods.mapM (method types options)
  return .interface { name := s.name, methods }

/-! ## Files -/

/-- The constant that holds the package of a file. -/
def packageConstant (f : File) : Declaration :=
  .constant
    { name := "protobufPackage", initial := some { format := "%S", args := [.text f.package] } }

/-- The code that makes the runtime use the `long` package. -/
def longSetup : CodeBlock :=
  let util : Argument := .type (.symbol utilSymbol)
  let long : Argument := .type (.symbol longSymbol)
  let configure : Argument := .type (.symbol configureSymbol)
  { format := "if (%T.Long !== %T) \x7b\n  %T.Long = %T as any;\n  %T();\n\x7d"
    args := [util, long, util, long, configure] }

/-- Whether a field of a file is typed as a long integer. -/
def usesLong (f : File) : Bool :=
  (typedFieldsOfAll (Scope.ofFile f) f.messages).any fun field => isLong field.type

/-- The path of the file generated for a descriptor's file. -/
def outputPath (f : File) : String :=
  moduleName f.name ++ ".ts"

/-- The header comment of the file generated for a descriptor's file. -/
def header (f : File) : String :=
  "Code generated by protoc-gen-tsforge. DO NOT EDIT.\nsource: " ++ f.name

/-- The file model of a descriptor's file. -/
def file (types : TypeMap) (options : GenerationOptions) (f : File) : Except Fault FileModel := do
  let scope := Scope.ofFile f
  let inner ← messages types options scope f.messages
  let services ← f.services.mapM (service types options)
  let declarations :=
    packageConstant f :: (f.enums.map (enumeration options scope) ++ inner ++ services)
  let setup := if usesLong f && options.longType = .long then [Member.code longSetup] else []
  return {
    path := outputPath f
    comment := some (header f)
    members := declarations.map .declaration ++ setup }

end ModuleAssembly.Generation
