import ModuleAssembly.Assembly
import ModuleAssembly.Generation.Files
import ModuleAssembly.Generation.Legible
import ModuleAssembly.Parameters

/-!
# The compiler plugin

`Plugin.respond` answers a request of the compiler: every wanted file is generated and assembled,
with the comments of its source as documentation. `Plugin.run` does so from bytes to bytes; if it
fails, nothing but a message comes out, and the exit code is one.
-/

namespace ModuleAssembly.Plugin

open Descriptor (File Request)
open Generation

/-- A file of a response. -/
structure ResponseFile where
  /-- Its path. -/
  name : String
  /-- Its text. -/
  content : String
deriving DecidableEq, Repr, Inhabited

/-- What is handed back to the compiler. -/
structure Response where
  /-- The features that the plugin knows: one stands for optional fields. -/
  features : Nat := 1
  /-- The generated files. -/
  files : List ResponseFile := []
deriving DecidableEq, Repr, Inhabited

namespace Response

/-- The bytes of a file of a response. -/
def fileBytes (f : ResponseFile) : List UInt8 :=
  Wire.textField 1 f.name ++ Wire.textField 15 f.content

/-- The bytes of a response. -/
def encode (r : Response) : List UInt8 :=
  Wire.varintField 2 r.features ++ r.files.flatMap fun f => Wire.bytesField 15 (fileBytes f)

end Response

/-- The files of a request that are to be generated. -/
def targets (r : Request) : List File :=
  r.files.filter fun f => r.wanted.isEmpty || r.wanted.contains f.name

/-- The options of a request: those of its parameter, or those of the configuration if it has
none. -/
def requestOptions (config : Config) (r : Request) : GenerationOptions :=
  if r.parameter = "" then config.options else (Parameters.ofText r.parameter).options

/-- The comments of the source of each generated file, by its path. -/
def commentLoader (sources : List (String × File)) : MetadataLoader :=
  fun f =>
    match sources.lookup f.path with
    | some source =>
      match Generation.sourceComments source with
      | .ok comments => .ok (some ⟨comments⟩)
      | .error fault => .error fault.message
    | none => .error (Text.displayed f.path)

/-- The files of a request, generated. -/
def generated (config : Config) (r : Request) : Except Fault (List FileModel) :=
  (targets r).mapM (Generation.file (TypeMap.ofFiles r.files) (requestOptions config r))

/-- Answers a request. -/
def respond (config : Config) (r : Request) : Except Fault Response := do
  let generated ← generated config r
  let loader := commentLoader (Association.ofList ((generated.map (·.path)).zip (targets r)))
  let files ← assembleAll config.assembly loader generated
  return { files := files.map fun f => ⟨f.path, f.content⟩ }

/-- Why the plugin fails. -/
inductive Failure where
  /-- The bytes are no request. -/
  | malformed
  /-- A file cannot be generated or assembled. -/
  | fault (fault : Fault)
  /-- Where a text is needed there are bytes that are none. -/
  | illegible
deriving DecidableEq, Repr, Inhabited

/-- The wording of a failure. -/
def Failure.message : Failure → String
  | .malformed => "Error parsing message"
  | .fault cause => cause.message
  | .illegible => "a bytes-like object is required, not 'str'"

/-- What a run of the plugin leaves behind. -/
structure Outcome where
  /-- The exit code. -/
  exitCode : Nat
  /-- The bytes on standard output. -/
  output : List UInt8
  /-- Why it failed, if it did. -/
  failure : Option Failure
deriving DecidableEq, Repr, Inhabited

/-- The text on standard error. -/
def Outcome.errorText (o : Outcome) : String :=
  o.failure.elim "" fun failure => "FAILED!\n" ++ failure.message ++ "\n"

/-- The request of the fields of its message. -/
def requestOf (fields : List Wire.FieldData) : Request :=
  { Request.ofFields fields with files := (Legible.files fields).map Legible.file }

/-- Whether all that is written for the files of a request is text, once they can be generated. -/
def isLegible (config : Config) (fields : List Wire.FieldData) : Bool :=
  let r := requestOf fields
  let sources := (Legible.files fields).filter fun f =>
    r.wanted.isEmpty || r.wanted.contains (Legible.file f).name
  match generated config r with
  | .error _ => true
  | .ok generated =>
    let bySource := Association.ofList ((generated.map (·.path)).zip sources)
    sources.all Legible.isFileLegible && generated.all fun f =>
      (bySource.lookup f.path).all fun source => Legible.isDocumentationLegible source f

/-- Reads a request and answers it. -/
def answer (config : Config) (input : List UInt8) : Except Failure Response := do
  match Wire.read? .request input with
  | none => throw .malformed
  | some fields =>
    if !Legible.isRequestLegible fields then throw .illegible
    let response ← (respond config (requestOf fields)).mapError .fault
    if isLegible config fields then return response else throw .illegible

/-- The outcome of an answer. -/
def outcome : Except Failure Response → Outcome
  | .ok response => ⟨0, response.encode, none⟩
  | .error failure => ⟨1, [], some failure⟩

/-- Runs the plugin on the bytes of a request. -/
def run (config : Config) (input : List UInt8) : Outcome :=
  outcome (answer config input)

end ModuleAssembly.Plugin
