import ModuleAssembly.Config
import ModuleAssembly.Validation.Members

/-!
# Configuration in documents

Readers for the configuration and writers of the documents that they read back. A document may
leave out every field.
-/

namespace ModuleAssembly

open Validated (fail)

namespace LongType

/-- The word for a way to type long integers. -/
def word : LongType → String
  | .number => "number"
  | .long => "long"
  | .string => "string"

/-- Reads a way to type long integers. -/
def ofValue : Value → Validated LongType
  | .text s => (([number, long, string].find? (·.word == s)).elim (fail .choice) .valid)
  | _ => fail .choice

end LongType

namespace GenerationOptions

/-- Reads the fields of the options. -/
def ofEntries (entries : Entries) : Validated GenerationOptions :=
  GenerationOptions.mk
    <$> entries.flag "snake_to_camel" true
    <*> entries.withDefault "force_long" LongType.ofValue .number
    <*> entries.flag "use_optionals" false
    <*> entries.flag "use_date" true
    <*> entries.flag "lower_case_service_methods" false
    <*> entries.flag "string_enums" false
    <*> entries.flag "return_observable" false
    <*> entries.flag "nest_js" false
    <*> entries.flag "add_unrecognized_enum" true

/-- Reads options. -/
def ofValue (v : Value) : Validated GenerationOptions :=
  v.readModel ofEntries

/-- The document of options. -/
def toValue (o : GenerationOptions) : Value :=
  .object [("snake_to_camel", .bool o.snakeToCamel), ("force_long", .text o.longType.word),
    ("use_optionals", .bool o.useOptionals), ("use_date", .bool o.useDate),
    ("lower_case_service_methods", .bool o.lowerCaseMethods),
    ("string_enums", .bool o.stringEnums), ("return_observable", .bool o.returnObservable),
    ("nest_js", .bool o.nestJs), ("add_unrecognized_enum", .bool o.addUnrecognized)]

end GenerationOptions

namespace AssemblyConfig

/-- Reads a number of workers, at least one. -/
def readWorkers (v : Value) : Validated Int :=
  v.readInt.andThen fun n => if n < 1 then fail .tooSmall else .valid n

/-- Reads the fields of the settings. -/
def ofEntries (entries : Entries) : Validated AssemblyConfig :=
  (fun indent suffix extensions workers => { indent, suffix, extensions, workers })
    <$> entries.withDefault "indent" Value.readText "  "
    <*> entries.withDefault "autoresolve_suffix" Value.readText "_autoresolved_"
    <*> entries.withDefault "source_extensions" (Value.readList Value.readText) [".ts", ".tsx"]
    <*> entries.withDefault "workers" readWorkers 1

/-- Reads settings. -/
def ofValue (v : Value) : Validated AssemblyConfig :=
  v.readModel ofEntries

/-- The document of settings. -/
def toValue (c : AssemblyConfig) : Value :=
  .object [("indent", .text c.indent), ("autoresolve_suffix", .text c.suffix),
    ("source_extensions", .list (c.extensions.map .text)), ("workers", .int c.workers)]

end AssemblyConfig

namespace Config

/-- Reads the fields of a configuration. -/
def ofEntries (entries : Entries) : Validated Config :=
  Config.mk <$> entries.withDefault "options" GenerationOptions.ofValue {}
    <*> entries.withDefault "assembly" AssemblyConfig.ofValue {}

/-- Reads a configuration. -/
def ofValue (v : Value) : Validated Config :=
  v.readModel ofEntries

/-- The document of a configuration. -/
def toValue (c : Config) : Value :=
  .object [("options", c.options.toValue), ("assembly", c.assembly.toValue)]

end Config

end ModuleAssembly
