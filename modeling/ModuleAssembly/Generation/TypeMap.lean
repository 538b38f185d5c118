import ModuleAssembly.Association
import ModuleAssembly.Descriptor.Basic
import ModuleAssembly.Generation.Names
import ModuleAssembly.Symbol

/-!
# The type map

`TypeMap.ofFiles` maps the full name of every message and enumeration, with a leading dot, to the
symbol it becomes: a name in which the names of the messages around it come first, with underscores
between, and the module generated for its file. A full name that is declared twice means its last
declaration.
-/

namespace ModuleAssembly

open Descriptor (Message Enum File)

/-- The symbols of full names. -/
abbrev TypeMap := List (String × Symbol)

namespace TypeMap

/-- A scope of declarations: the names in front of theirs. -/
structure Scope where
  /-- In front of full names, without the dot between. -/
  full : String
  /-- In front of generated names. -/
  generated : String
deriving DecidableEq, Repr, Inhabited

namespace Scope

/-- The scope of the declarations of a file. -/
def ofFile (f : File) : Scope :=
  ⟨if f.package = "" then "" else "." ++ f.package, ""⟩

/-- The full name of a declaration. -/
def fullName (s : Scope) (name : String) : String :=
  s.full ++ "." ++ name

/-- The generated name of a declaration. -/
def generatedName (s : Scope) (name : String) : String :=
  s.generated ++ name

/-- The scope inside a message. -/
def inside (s : Scope) (name : String) : Scope :=
  ⟨s.fullName name, s.generatedName name ++ "_"⟩

end Scope

/-- The entry of a declaration. -/
def entry (module : String) (s : Scope) (name : String) : String × Symbol :=
  (s.fullName name, ⟨s.generatedName name, module⟩)

/-- The entries of enumerations. -/
def enumEntries (module : String) (s : Scope) (enums : List Enum) : List (String × Symbol) :=
  enums.map fun e => entry module s e.name

mutual

/-- The entries of a message: its own, those of its enumerations, those of its messages. -/
def messageEntries (module : String) (s : Scope) : Message → List (String × Symbol)
  | ⟨name, _, nested, enums, _⟩ =>
    entry module s name ::
      (enumEntries module (s.inside name) enums ++ messagesEntries module (s.inside name) nested)

/-- The entries of several messages. -/
def messagesEntries (module : String) (s : Scope) : List Message → List (String × Symbol)
  | [] => []
  | m :: ms => messageEntries module s m ++ messagesEntries module s ms

end

/-- The module path of the module generated for a file. -/
def modulePath (f : File) : String :=
  "./" ++ Generation.moduleName f.name

/-- The entries of a file. -/
def fileEntries (f : File) : List (String × Symbol) :=
  let s := Scope.ofFile f
  enumEntries (modulePath f) s f.enums ++ messagesEntries (modulePath f) s f.messages

/-- The type map of files. -/
def ofFiles (files : List File) : TypeMap :=
  Association.ofList (files.flatMap fileEntries)

/-- The symbol of a full name. -/
def find? (types : TypeMap) (fullName : String) : Option Symbol :=
  types.lookup fullName

end TypeMap

end ModuleAssembly
