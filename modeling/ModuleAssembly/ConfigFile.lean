import ModuleAssembly.Validation.Settings
import ModuleAssembly.Value.Yaml.Block
import ModuleAssembly.Value.Yaml.Document

/-!
# Configuration files

`ConfigFile.load` reads a configuration from the text of a YAML file, if there is one, and
`ConfigFile.defaultText` is the text of a file that spells out every default.
-/

namespace ModuleAssembly.ConfigFile

/-- Why a configuration cannot be loaded. -/
inductive Failure where
  /-- There is no file of that path. -/
  | notFound (path : String)
  /-- The file is no YAML document. -/
  | invalidYaml
  /-- A scalar of the document has no value. -/
  | badScalar (fault : Yaml.Plain.Fault)
  /-- The document is empty. -/
  | blank
  /-- The document is no mapping with texts for keys. -/
  | notFields
  /-- Fields of the document have wrong values. -/
  | invalid (issues : List Issue)
deriving Repr, Inhabited

/-- The wording of a failure. -/
def Failure.message : Failure → String
  | .notFound path => "Configuration file not found: " ++ path
  | .invalidYaml => "Invalid YAML in configuration file"
  | .badScalar fault => fault.message
  | .blank => "Configuration file is empty"
  | .notFields => "Configuration is not a mapping of names"
  | .invalid _ => "Configuration validation failed"

/-- Whether a key is a text. -/
def isName : Scalar → Bool
  | .text _ => true
  | _ => false

/-- The configuration of a document. -/
def ofValue (v : Value) : Except Failure Config :=
  match v with
  | .null => .error .blank
  | .mapping entries =>
    if entries.all (isName ·.1) then
      match Config.ofEntries entries with
      | .valid config => .ok config
      | .invalid issues => .error (.invalid issues)
    else .error .notFields
  | _ => .error .notFields

/-- Loads the configuration at a path whose file has the given text, if there is one. -/
def load (path : String) (text : Option String) : Except Failure Config :=
  match text with
  | none => .error (.notFound path)
  | some text =>
    match Yaml.read text with
    | .ok v => ofValue v
    | .error .malformed => .error .invalidYaml
    | .error (.badScalar fault) => .error (.badScalar fault)

/-- The text of a file with all defaults. -/
def defaultText : String :=
  Yaml.render ({} : Config).toValue

end ModuleAssembly.ConfigFile
