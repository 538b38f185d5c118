import ModuleAssembly.Association
import ModuleAssembly.Descriptor.Basic
import ModuleAssembly.Fault
import ModuleAssembly.Text.Blank

/-!
# Comments of the source

A location of the source names its element by a path of field numbers and indices.
`declarationName` gives the name that the element is generated under, if it is a message, an
enumeration or a service, and `sourceComments` the comment of each such name, the first where there
are several. An index counts from the end if it is negative, and must be in range.
-/

namespace ModuleAssembly.Generation

open Descriptor (Message File)

/-- The element at an index, which counts from the end if it is negative. -/
def element {α : Type} (xs : List α) (index : Int) : Except Fault α :=
  let place := if index < 0 then index + xs.length else index
  match (if place < 0 then none else xs[place.toNat]?) with
  | some x => .ok x
  | none => .error .indexOutOfRange

/-- The name of the element that a path leads to from inside a message of the generated name
`name`. -/
def nameInside (name : String) (m : Message) : List Int → Except Fault (Option String)
  | [] => .ok (some name)
  | 3 :: index :: rest => do
    let inner ← element m.nested index
    nameInside (name ++ "_" ++ inner.name) inner rest
  | [4, index] => do
    let e ← element m.enums index
    return some (name ++ "_" ++ e.name)
  | _ => .ok none

/-- The generated name of the declaration that a path leads to, if it leads to one. -/
def declarationName (f : File) : List Int → Except Fault (Option String)
  | [6, index] => (element f.services index).map fun s => some s.name
  | [5, index] => (element f.enums index).map fun e => some e.name
  | 4 :: index :: rest => do
    let m ← element f.messages index
    nameInside m.name m rest
  | _ => .ok none

/-- The text of a location: its leading comment, or else its trailing one. -/
def locationText (l : Descriptor.Location) : String :=
  Text.trim (if l.leading = "" then l.trailing else l.leading)

/-- Gives the declaration that a path leads to an entry, unless it has one. -/
def addByPath {α : Type} (f : File) (named : List (String × α)) (entry : List Int × α) :
    Except Fault (List (String × α)) := do
  match ← declarationName f entry.1 with
  | some name => return Association.insertNew named name entry.2
  | none => return named

/-- The first entry of each declaration that paths lead to, by generated names. -/
def byName {α : Type} (f : File) (entries : List (List Int × α)) :
    Except Fault (List (String × α)) :=
  entries.foldlM (addByPath f) []

/-- The path and the text of a location that has one. -/
def commentAt? (l : Descriptor.Location) : Option (List Int × String) :=
  if locationText l = "" then none else some (l.path, locationText l)

/-- The comments of the declarations of a file, by their generated names. -/
def sourceComments (f : File) : Except Fault (List (String × String)) :=
  byName f (f.locations.filterMap commentAt?)

end ModuleAssembly.Generation
