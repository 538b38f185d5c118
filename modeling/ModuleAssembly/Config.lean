import ModuleAssembly.Resolution

/-!
# Configuration

`GenerationOptions` shape the declarations that are generated from descriptors, and
`AssemblyConfig` the text that files are assembled to; a `Config` holds both. Every field has a
default.
-/

namespace ModuleAssembly

/-- How integer fields of sixty-four bits are typed. -/
inductive LongType where
  /-- As a number. -/
  | number
  /-- As an object of the `long` package. -/
  | long
  /-- As a text. -/
  | string
deriving DecidableEq, Repr, Inhabited

/-- Options for the declarations that are generated from descriptors. -/
structure GenerationOptions where
  /-- Whether the names of fields lose their underscores. -/
  snakeToCamel : Bool := true
  /-- How long integers are typed. -/
  longType : LongType := .number
  /-- Whether every field may be left out. -/
  useOptionals : Bool := false
  /-- Whether time stamps become dates. -/
  useDate : Bool := true
  /-- Whether the names of methods start with a small letter. -/
  lowerCaseMethods : Bool := false
  /-- Whether the constants of enumerations are texts. -/
  stringEnums : Bool := false
  /-- Whether methods return observables. -/
  returnObservable : Bool := false
  /-- Whether services follow the NestJS conventions. -/
  nestJs : Bool := false
  /-- Whether enumerations get a constant for unknown values. -/
  addUnrecognized : Bool := true
deriving DecidableEq, Repr, Inhabited

/-- How files are assembled. -/
structure AssemblyConfig where
  /-- What a line is indented by at each level. -/
  indent : String := "  "
  /-- What stands between a name that is taken and its number. -/
  suffix : String := "_autoresolved_"
  /-- The extensions of source files. -/
  extensions : List String := [".ts", ".tsx"]
  /-- How many files are assembled side by side. It has no influence on the result. -/
  workers : Int := 1
  /-- The directory that paths are counted from, by its names from the root. It is where a program
  runs, and no document says it. -/
  base : List String := []
deriving DecidableEq, Repr, Inhabited

/-- The rules by which imports are named. -/
def AssemblyConfig.naming (c : AssemblyConfig) : NamingRules :=
  ⟨c.suffix, c.extensions⟩

/-- Generation options and assembly settings. -/
structure Config where
  /-- How declarations are generated. -/
  options : GenerationOptions := {}
  /-- How files are assembled. -/
  assembly : AssemblyConfig := {}
deriving DecidableEq, Repr, Inhabited

end ModuleAssembly
