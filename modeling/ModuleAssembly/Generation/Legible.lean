import ModuleAssembly.Declaration
import ModuleAssembly.Descriptor.Decode
import ModuleAssembly.Generation.Comments

/-!
# Texts that are none

A request may hold bytes where it should hold a text. They do no harm where they are not used, or
where they only become a part of a longer name, in which they stand as they are shown; a type of
such a name is known to no file. Nothing can be generated, however, if the parameter or the name of
a file is no text, nor from a file whose package, or a name that is written on its own, is none.
-/

namespace ModuleAssembly.Generation.Legible

open Descriptor (File Location)
open Wire (FieldData)

/-- The messages that fields of a number hold. -/
def messagesAt (number : Nat) (fields : List FieldData) : List (List FieldData) :=
  fields.filterMap fun field =>
    match field with
    | (n, .message inner) => if n = number then some inner else none
    | _ => none

/-- The bytes of the last field of a number. -/
def bytesAt? (number : Nat) (fields : List FieldData) : Option (List UInt8) :=
  fields.reverse.findSome? fun field =>
    match field with
    | (n, .bytes bs) => if n = number then some bs else none
    | _ => none

/-- Whether the text of a field is one. -/
def isText (number : Nat) (fields : List FieldData) : Bool :=
  (bytesAt? number fields).all fun bs => (Wire.text? bs).isSome

/-- The files of a request. -/
def files (request : List FieldData) : List (List FieldData) :=
  messagesAt 15 request

/-- Whether the parameter and the names of all files are texts. -/
def isRequestLegible (request : List FieldData) : Bool :=
  isText 2 request && (files request).all (isText 1)

/-! ## Names -/

/-- Whether the names of the values of an enumeration are texts. -/
def isEnumLegible (enumeration : List FieldData) : Bool :=
  (messagesAt 2 enumeration).all (isText 1)

/-- Whether a message stands for the entries of a map. -/
def isMapEntry (message : List FieldData) : Bool :=
  (messagesAt 7 message).flatten.foldl Descriptor.putOption false

/-- Whether the names of the fields of a message are texts, and those in its enumerations. -/
def isMessageLegible (message : List FieldData) : Bool :=
  (messagesAt 2 message).all (isText 1) && (messagesAt 4 message).all isEnumLegible

/-- Whether that holds of the messages at a number and those inside them, entries of maps apart. -/
def areMessagesLegible (number : Nat) : List FieldData → Bool
  | [] => true
  | (n, .message message) :: rest =>
    (n != number || isMapEntry message ||
      (isMessageLegible message && areMessagesLegible 3 message)) && areMessagesLegible number rest
  | _ :: rest => areMessagesLegible number rest

/-- Whether the name of a service and those of its methods are texts. -/
def isServiceLegible (service : List FieldData) : Bool :=
  isText 1 service && (messagesAt 2 service).all (isText 1)

/-- Whether the package of a file, and every name that is written on its own, is a text. -/
def isFileLegible (file : List FieldData) : Bool :=
  isText 2 file && (messagesAt 5 file).all isEnumLegible && areMessagesLegible 4 file &&
    (messagesAt 6 file).all isServiceLegible

/-! ## Comments -/

/-- Whether a path leads to a message or an enumeration of a file whose name is no text. -/
def leadsToBytes (file : List FieldData) : List Int → Bool
  | [kind, index] =>
    if kind = 4 ∨ kind = 5 then
      match element ((messagesAt kind.toNat file).map (isText 1)) index with
      | .ok legible => !legible
      | .error _ => false
    else false
  | _ => false

/-- The locations of a file, and whether the comment of each is a text. One whose element has no
text for a name is left out: its comment belongs to nothing. -/
def locations (file : List FieldData) : List (Location × Bool) :=
  let all := (messagesAt 9 file).flatMap fun info => (messagesAt 1 info).map fun fields =>
    let l := Location.ofFields fields
    (l, isText (if l.leading = "" then 4 else 3) fields)
  all.filter fun entry => !leadsToBytes file entry.1.path

/-- The descriptor of a file. -/
def file (fields : List FieldData) : File :=
  { File.ofFields fields with locations := (locations fields).map (·.1) }

/-- Whether the comment that documents each declaration of a generated file is a text. -/
def isDocumentationLegible (source : List FieldData) (f : FileModel) : Bool :=
  let marks := (locations source).filterMap fun entry =>
    (commentAt? entry.1).map fun comment => (comment.1, entry.2)
  match byName (file source) marks with
  | .ok marks => f.members.all fun m =>
    match m with
    | .declaration d => (d.doc.any (· != "")) || (marks.lookup d.name).getD true
    | .code _ => true
  | .error _ => true

end ModuleAssembly.Generation.Legible
