/-!
# Descriptors

What a Protocol Buffers compiler hands over about the files it has read: their messages with fields,
their enumerations, their services with methods, and the comments of the source. A field that was
not set has its default; only for `oneofIndex` does it matter whether it was set.
-/

namespace ModuleAssembly.Descriptor

/-- The type of a field, without the name of a message or enumeration. -/
inductive FieldType where
  /-- A float of sixty-four bits. -/
  | double
  /-- A float of thirty-two bits. -/
  | float
  /-- A signed integer of sixty-four bits. -/
  | int64
  /-- An unsigned integer of sixty-four bits. -/
  | uint64
  /-- A signed integer of thirty-two bits. -/
  | int32
  /-- An unsigned integer in eight bytes. -/
  | fixed64
  /-- An unsigned integer in four bytes. -/
  | fixed32
  /-- A truth value. -/
  | bool
  /-- A text. -/
  | string
  /-- A message in the old form of a group. -/
  | group
  /-- A message. -/
  | message
  /-- Bytes. -/
  | bytes
  /-- An unsigned integer of thirty-two bits. -/
  | uint32
  /-- An enumeration. -/
  | enumeration
  /-- A signed integer in four bytes. -/
  | sfixed32
  /-- A signed integer in eight bytes. -/
  | sfixed64
  /-- A signed integer of thirty-two bits, small for small magnitudes. -/
  | sint32
  /-- A signed integer of sixty-four bits, small for small magnitudes. -/
  | sint64
deriving DecidableEq, Repr, Inhabited

/-- The field types in the order of their numbers, which start at one. -/
def FieldType.all : List FieldType :=
  [.double, .float, .int64, .uint64, .int32, .fixed64, .fixed32, .bool, .string, .group, .message,
    .bytes, .uint32, .enumeration, .sfixed32, .sfixed64, .sint32, .sint64]

/-- The field type of a number. -/
def FieldType.ofNumber? (n : Nat) : Option FieldType :=
  if n = 0 then none else all[n - 1]?

/-- How often a field may stand in its message. -/
inductive Label where
  /-- At most once. -/
  | optional
  /-- Once. -/
  | required
  /-- Any number of times. -/
  | repeated
deriving DecidableEq, Repr, Inhabited

/-- The label of a number. -/
def Label.ofNumber? : Nat → Option Label
  | 1 => some .optional
  | 2 => some .required
  | 3 => some .repeated
  | _ => none

/-- A field of a message. -/
structure Field where
  /-- Its name. -/
  name : String := ""
  /-- How often it may stand. -/
  label : Label := .optional
  /-- Its type. -/
  type : FieldType := .double
  /-- The full name of its message or enumeration, with a leading dot. -/
  typeName : String := ""
  /-- The group of alternatives that it belongs to, if that was set. -/
  oneofIndex : Option Int := none
  /-- Whether it was declared optional. -/
  proto3Optional : Bool := false
deriving DecidableEq, Repr, Inhabited

/-- A value of an enumeration. -/
structure EnumValue where
  /-- Its name. -/
  name : String := ""
  /-- Its number, of thirty-two bits. -/
  number : Int32 := 0
deriving DecidableEq, Repr, Inhabited

/-- An enumeration. -/
structure Enum where
  /-- Its name. -/
  name : String := ""
  /-- Its values. -/
  values : List EnumValue := []
deriving DecidableEq, Repr, Inhabited

/-- A message, which may declare messages and enumerations inside. -/
structure Message where
  /-- Its name. -/
  name : String := ""
  /-- Its fields. -/
  fields : List Field := []
  /-- The messages declared inside. -/
  nested : List Message := []
  /-- The enumerations declared inside. -/
  enums : List Enum := []
  /-- Whether it stands for the entries of a map field. -/
  mapEntry : Bool := false
deriving Repr, Inhabited

/-- A method of a service. -/
structure Method where
  /-- Its name. -/
  name : String := ""
  /-- The full name of the message it takes. -/
  inputType : String := ""
  /-- The full name of the message it returns. -/
  outputType : String := ""
  /-- Whether it returns a stream. -/
  serverStreaming : Bool := false
deriving DecidableEq, Repr, Inhabited

/-- A service. -/
structure Service where
  /-- Its name. -/
  name : String := ""
  /-- Its methods. -/
  methods : List Method := []
deriving DecidableEq, Repr, Inhabited

/-- A place in the source, with its comments. -/
structure Location where
  /-- The way from the file to the element: field numbers and indices in turn. -/
  path : List Int := []
  /-- The comment before the element. -/
  leading : String := ""
  /-- The comment after the element. -/
  trailing : String := ""
deriving DecidableEq, Repr, Inhabited

/-- A file. -/
structure File where
  /-- Its path. -/
  name : String := ""
  /-- Its package. -/
  package : String := ""
  /-- Its messages. -/
  messages : List Message := []
  /-- Its enumerations. -/
  enums : List Enum := []
  /-- Its services. -/
  services : List Service := []
  /-- The places of its source that have comments. -/
  locations : List Location := []
deriving Repr, Inhabited

/-- What the compiler asks for. -/
structure Request where
  /-- The names of the files to generate; none means all. -/
  wanted : List String := []
  /-- The options, as the compiler was given them. -/
  parameter : String := ""
  /-- The files that were read. -/
  files : List File := []
deriving Repr, Inhabited

end ModuleAssembly.Descriptor
