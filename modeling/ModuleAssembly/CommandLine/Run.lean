import ModuleAssembly.CommandLine.Arguments
import ModuleAssembly.CommandLine.FileTree
import ModuleAssembly.CommandLine.Markup
import ModuleAssembly.ConfigFile
import ModuleAssembly.ModelFile
import ModuleAssembly.Plugin
import ModuleAssembly.Text.Lines

/-!
# Running a command

A command reads the files it needs before it writes any. `Command.plan` says, from what the paths of
a call lead to, which files are to be written and how the call ends; `run` carries the plan out on a
tree of files. A plan that fails has nothing to write, unless only a report at the end cannot be
printed.
-/

namespace ModuleAssembly.CommandLine

/-- How a call ends. -/
inductive Status where
  /-- All was done. -/
  | done
  /-- Something failed. -/
  | failed
  /-- The call makes no sense, or names a model file that is not there. -/
  | misused
deriving DecidableEq, Repr, Inhabited

/-- The exit code of a status. -/
def Status.exitCode : Status → Nat
  | .done => 0
  | .failed => 1
  | .misused => 2

/-- What a call comes to. -/
structure Plan where
  /-- How it ends, if everything can be written. -/
  status : Status
  /-- The files to write, in order. -/
  writes : List (TreePath × String) := []
  /-- The bytes on standard output, of a plugin. -/
  output : List UInt8 := []
  /-- The text on standard error, of a plugin. -/
  errorText : String := ""
deriving DecidableEq, Repr, Inhabited

/-- A plan that only fails. -/
def Plan.fail (status : Status) : Plan :=
  { status }

/-- What looking up the paths of a call gives. -/
abbrev Reader := String → Lookup

/-- What a call finds where it runs. -/
structure Surroundings where
  /-- The working directory, by its names from the root. -/
  base : List String
  /-- What paths lead to. -/
  read : Reader
  /-- Standard input. -/
  input : List UInt8

namespace Command

/-! ## Assembling -/

/-- The configuration of a call. Without a path, or with an empty one, all defaults hold. -/
def loadConfig (read : Reader) (path : Option String) : Except Status Config :=
  match path.filter (· != "") with
  | none => .ok {}
  | some path =>
    if !Markup.isPrintable ("[cyan]Loading configuration from " ++ path ++ "...[/cyan]") then
      .error .failed
    else
      match read path with
      | .refused => .error .failed
      | .missing => (ConfigFile.load path none).mapError fun _ => .failed
      | .found .directory => .error .failed
      | .found (.file text) => (ConfigFile.load path (some text)).mapError fun _ => .failed

/-- The file models of a model file. -/
def loadModels (read : Reader) (path : String) : Except Status (List FileModel) :=
  match read path with
  | .refused => .error .failed
  | .missing => .error .misused
  | .found .directory => .error .failed
  | .found (.file text) => (ModelFile.load path text).mapError fun _ => .failed

/-- The files that a call assembles. -/
def assembled (around : Surroundings) (models : List String) (config : Option String) :
    Except Status (List AssembledFile) := do
  let config ← loadConfig around.read config
  let files ← models.mapM (loadModels around.read)
  let settings := { config.assembly with base := around.base }
  (assembleAll settings .nothing files.flatten).mapError fun _ => .failed

/-- Where an assembled file goes. -/
def target (output path : String) : TreePath :=
  (TreePath.ofText output).join (TreePath.ofText path)

/-- Whether the table of the renames can be printed. -/
def renamesPrintable (files : List AssembledFile) : Bool :=
  files.all fun f => f.renames.all fun r =>
    [f.path, r.symbol.name, r.symbol.module, r.newName].all Markup.isPrintable

/-- Whether the files themselves can be printed. -/
def contentsPrintable (files : List AssembledFile) : Bool :=
  files.all fun f => Markup.isPrintable f.content && Markup.isPrintable f.path

/-- Whether the summary of the written files can be printed. -/
def summaryPrintable (output : String) (files : List AssembledFile) : Bool :=
  files.all (Markup.isPrintable ·.path) &&
    Markup.isPrintable ("[bold green]Wrote files to " ++ output ++ "[/bold green]")

/-- The plan for assembled files. -/
def filesPlan (output : String) (dryRun showRenames : Bool) (files : List AssembledFile) : Plan :=
  if files.isEmpty then { status := .done }
  else if showRenames && !renamesPrintable files then .fail .failed
  else if dryRun then { status := if contentsPrintable files then .done else .failed }
  else
    { status := if summaryPrintable output files then .done else .failed
      writes := files.map fun f => (target output f.path, f.content) }

/-! ## Writing a configuration -/

/-- The answers to a question of yes or no. -/
def answer? (line : String) : Option Bool :=
  match Text.trim line.toLower with
  | "y" => some true
  | "yes" => some true
  | "n" => some false
  | "no" => some false
  | "" => some false
  | _ => none

/-- Whether the first line that answers a question says yes. -/
def confirmed (input : String) : Bool :=
  ((Text.textLines input).findSome? answer?).getD false

/-- The plan of writing a configuration. -/
def initConfigPlan (read : Reader) (input output : String) : Plan :=
  let found := read output
  if found = .refused ∨ found.isFound ∧ !confirmed input then .fail .failed
  else
    { status :=
        if Markup.isPrintable ("[green]✓[/green] Generated configuration file: " ++ output) then
          .done
        else .failed
      writes := [(TreePath.ofText output, ConfigFile.defaultText)] }

/-- The plan of a command. -/
def plan (around : Surroundings) : Command → Plan
  | .help => { status := .done }
  | .assemble models output config _ dryRun showRenames =>
    match assembled around models config with
    | .ok files => filesPlan output dryRun showRenames files
    | .error status => .fail status
  | .plugin =>
    let outcome := Plugin.run { assembly := { base := around.base } } around.input
    { status := if outcome.exitCode = 0 then .done else .failed
      output := outcome.output
      errorText := outcome.errorText }
  | .initConfig output =>
    initConfigPlan around.read ((Wire.text? around.input).getD "") output

/-- The paths that a command reads. -/
def paths : Command → List String
  | .assemble models _ config _ _ _ => config.toList ++ models
  | .initConfig output => [output]
  | _ => []

/-- Whether a command reads standard input, given what paths lead to. -/
def readsInput (read : Reader) : Command → Bool
  | .plugin => true
  | .initConfig output => (read output).isFound
  | _ => false

end Command

/-- What a call leaves behind. -/
structure Outcome where
  /-- How it ended. -/
  status : Status
  /-- The files afterwards. -/
  tree : FileTree
  /-- The bytes on standard output, of a plugin. -/
  output : List UInt8

/-- Carries a plan out. -/
def Plan.carryOut (p : Plan) (tree : FileTree) : Outcome :=
  match tree.writeAll p.writes with
  | (tree, true) => ⟨p.status, tree, p.output⟩
  | (tree, false) => ⟨.failed, tree, p.output⟩

/-- The plan of a call. -/
def planOf (around : Surroundings) (args : List String) : Plan :=
  match Command.ofArguments args with
  | some command => command.plan around
  | none => .fail .misused

/-- Runs a call on a tree of files. -/
def run (tree : FileTree) (input : List UInt8) (args : List String) : Outcome :=
  let read (path : String) := tree.lookUp (TreePath.ofText path)
  (planOf ⟨tree.workingDirectory, read, input⟩ args).carryOut tree

end ModuleAssembly.CommandLine
