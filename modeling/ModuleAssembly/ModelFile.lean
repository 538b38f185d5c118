import ModuleAssembly.Text.Cut
import ModuleAssembly.Validation.Members
import ModuleAssembly.Value.Json
import ModuleAssembly.Value.Yaml.Document

/-!
# Model files

`ModelFile.load` reads the file models of a JSON or YAML file, which the extension of its name
tells apart. The document is a file model, a list of file models, or a mapping with a `files` list;
an empty document holds none.
-/

namespace ModuleAssembly.ModelFile

/-- Why a model file cannot be loaded. -/
inductive Failure where
  /-- The extension is that of no known kind of file. -/
  | unsupported (name : String)
  /-- The file is no JSON document. -/
  | invalidJson
  /-- The file is no YAML document. -/
  | invalidYaml
  /-- A scalar of the document has no value. -/
  | badScalar (fault : Yaml.Plain.Fault)
  /-- What should list the files cannot be gone through. -/
  | notIterable
  /-- A file model has wrong values. -/
  | invalid (issues : List Issue)
deriving Repr, Inhabited

/-- The wording of a failure. -/
def Failure.message : Failure → String
  | .unsupported name => "Unsupported model file type: " ++ name
  | .invalidJson => "Invalid JSON in model file"
  | .invalidYaml => "Invalid YAML in model file"
  | .badScalar fault => fault.message
  | .notIterable => "The files of a model file are not a list"
  | .invalid _ => "Model validation failed"

/-- The kinds of model files. -/
inductive Kind where
  /-- JSON. -/
  | json
  /-- YAML. -/
  | yaml
deriving DecidableEq, Repr, Inhabited

/-- The last component of a path. -/
def baseName (path : String) : String :=
  ((Text.parts '/' path).filter fun part => part != "" && part != ".").getLast?.getD ""

/-- The extension of a path, from its last point on. A name that starts or ends with its last point
has none. -/
def extension (path : String) : String :=
  let cs := (baseName path).toList
  let last := (cs.reverse.takeWhile (· != '.')).reverse
  let stem := cs.length - last.length - 1
  if last.length = cs.length ∨ stem = 0 ∨ last.isEmpty then "" else String.ofList ('.' :: last)

/-- The kind of a model file, by its extension in lower case. -/
def kind? (path : String) : Option Kind :=
  match (extension path).toLower with
  | ".json" => some .json
  | ".yaml" => some .yaml
  | ".yml" => some .yaml
  | _ => none

/-- Reads the document of a model file. -/
def document (path text : String) : Except Failure Value :=
  match kind? path with
  | some .json => (Json.read? Json.document text).elim (.error .invalidJson) .ok
  | some .yaml =>
    (Yaml.read text).mapError fun failure =>
      match failure with
      | .malformed => .invalidYaml
      | .badScalar fault => .badScalar fault
  | none => .error (.unsupported path)

/-- What going through a value gives: the items of a list, the keys of a mapping, or the characters
of a text. -/
def elements : Value → Except Failure (List Value)
  | .list items => .ok items
  | .mapping entries => .ok (entries.map fun entry => .scalar entry.1)
  | .text s => .ok (s.toList.map fun c => .text (String.singleton c))
  | _ => .error .notIterable

/-- The documents of the file models in a document. -/
def entries : Value → Except Failure (List Value)
  | .null => .ok []
  | .list items => .ok items
  | .mapping fields =>
    match Entries.field? fields "files" with
    | some files => elements files
    | none => .ok [.mapping fields]
  | v => .ok [v]

/-- Reads a file model. -/
def readModel (v : Value) : Except Failure FileModel :=
  match FileModel.ofValue v with
  | .valid f => .ok f
  | .invalid issues => .error (.invalid issues)

/-- The file models of a document, up to the first that is not valid. -/
def ofValue (v : Value) : Except Failure (List FileModel) := do
  (← entries v).mapM readModel

/-- Loads the file models of the file at a path with the given text. -/
def load (path text : String) : Except Failure (List FileModel) := do
  ofValue (← document path text)

end ModuleAssembly.ModelFile
