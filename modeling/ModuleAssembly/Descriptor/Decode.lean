import ModuleAssembly.Descriptor.Basic
import ModuleAssembly.Descriptor.Wire

/-!
# Descriptors from the fields of messages

`Descriptor.Request.ofFields` makes a request of the fields of its message. Of several values of a
single field the last one counts, and the parts of several messages of a single field are put
together. A number outside an enumeration leaves the field as it was. A text whose bytes are none
stands in the descriptors as it is shown.
-/

namespace ModuleAssembly.Descriptor

open Wire (FieldData shown int32 low32)

/-- Puts a field into a field descriptor. -/
def Field.put (f : Field) : FieldData → Field
  | (1, .bytes bs) => { f with name := shown bs }
  | (4, .varint n) => { f with label := (Label.ofNumber? (low32 n)).getD f.label }
  | (5, .varint n) => { f with type := (FieldType.ofNumber? (low32 n)).getD f.type }
  | (6, .bytes bs) => { f with typeName := shown bs }
  | (9, .varint n) => { f with oneofIndex := some (int32 n) }
  | (17, .varint n) => { f with proto3Optional := n != 0 }
  | _ => f

/-- The field descriptor of fields. -/
def Field.ofFields (fields : List FieldData) : Field :=
  fields.foldl Field.put {}

/-- Puts a field into a value of an enumeration. -/
def EnumValue.put (v : EnumValue) : FieldData → EnumValue
  | (1, .bytes bs) => { v with name := shown bs }
  | (2, .varint n) => { v with number := .ofInt (int32 n) }
  | _ => v

/-- Puts a field into an enumeration. -/
def Enum.put (e : Enum) : FieldData → Enum
  | (1, .bytes bs) => { e with name := shown bs }
  | (2, .message fields) => { e with values := e.values ++ [fields.foldl EnumValue.put {}] }
  | _ => e

/-- The enumeration of fields. -/
def Enum.ofFields (fields : List FieldData) : Enum :=
  fields.foldl Enum.put {}

/-- Whether a message stands for the entries of a map, after a field of its options; `mapEntry`
says so before it. -/
def putOption (mapEntry : Bool) : FieldData → Bool
  | (7, .varint n) => n != 0
  | _ => mapEntry

/-- Puts a field into a message, unless it is a message that is declared inside. -/
def Message.put (m : Message) : FieldData → Message
  | (1, .bytes bs) => { m with name := shown bs }
  | (2, .message fields) => { m with fields := m.fields ++ [.ofFields fields] }
  | (4, .message fields) => { m with enums := m.enums ++ [.ofFields fields] }
  | (7, .message fields) => { m with mapEntry := fields.foldl putOption m.mapEntry }
  | _ => m

/-- Puts fields into a message. -/
def Message.putAll : List FieldData → Message → Message
  | [], m => m
  | (3, .message fields) :: rest, m =>
    Message.putAll rest { m with nested := m.nested ++ [Message.putAll fields {}] }
  | field :: rest, m => Message.putAll rest (m.put field)

/-- Puts a field into a method. -/
def Method.put (m : Method) : FieldData → Method
  | (1, .bytes bs) => { m with name := shown bs }
  | (2, .bytes bs) => { m with inputType := shown bs }
  | (3, .bytes bs) => { m with outputType := shown bs }
  | (6, .varint n) => { m with serverStreaming := n != 0 }
  | _ => m

/-- Puts a field into a service. -/
def Service.put (s : Service) : FieldData → Service
  | (1, .bytes bs) => { s with name := shown bs }
  | (2, .message fields) => { s with methods := s.methods ++ [fields.foldl Method.put {}] }
  | _ => s

/-- Puts a field into a location. Its path may come number by number or all at once. -/
def Location.put (l : Location) : FieldData → Location
  | (1, .varint n) => { l with path := l.path ++ [int32 n] }
  | (1, .numbers ns) => { l with path := l.path ++ ns.map int32 }
  | (3, .bytes bs) => { l with leading := shown bs }
  | (4, .bytes bs) => { l with trailing := shown bs }
  | _ => l

/-- The location of fields. -/
def Location.ofFields (fields : List FieldData) : Location :=
  fields.foldl Location.put {}

/-- Puts a field of the source information into a file. -/
def File.putLocation (f : File) : FieldData → File
  | (1, .message fields) => { f with locations := f.locations ++ [.ofFields fields] }
  | _ => f

/-- Puts a field into a file. -/
def File.put (f : File) : FieldData → File
  | (1, .bytes bs) => { f with name := shown bs }
  | (2, .bytes bs) => { f with package := shown bs }
  | (4, .message fields) => { f with messages := f.messages ++ [Message.putAll fields {}] }
  | (5, .message fields) => { f with enums := f.enums ++ [.ofFields fields] }
  | (6, .message fields) => { f with services := f.services ++ [fields.foldl Service.put {}] }
  | (9, .message fields) => fields.foldl File.putLocation f
  | _ => f

/-- The file of fields. -/
def File.ofFields (fields : List FieldData) : File :=
  fields.foldl File.put {}

/-- Puts a field into a request. -/
def Request.put (r : Request) : FieldData → Request
  | (1, .bytes bs) => { r with wanted := r.wanted ++ [shown bs] }
  | (2, .bytes bs) => { r with parameter := shown bs }
  | (15, .message fields) => { r with files := r.files ++ [.ofFields fields] }
  | _ => r

/-- The request of fields. -/
def Request.ofFields (fields : List FieldData) : Request :=
  fields.foldl Request.put {}

end ModuleAssembly.Descriptor
