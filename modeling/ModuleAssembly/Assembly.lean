import ModuleAssembly.Collect
import ModuleAssembly.Config
import ModuleAssembly.Emission

/-!
# Assembling files

`assemble` turns a file model into text in two passes: the symbols of its declarations decide the
imports and the renames, those of its code blocks are merged into the imports, and then everything
is written as tokens, which the renames turn into text. Documentation for declarations without any
may come from a `MetadataLoader`; what it cannot load is left out.

`assembleAll` assembles several files in order and fails at the first that fails.
-/

namespace ModuleAssembly

/-- Side information about the source of a file. -/
structure Metadata where
  /-- Documentation by the names of declarations. -/
  comments : Docs := []
deriving DecidableEq, Repr, Inhabited

/-- A source of side information, which may have none for a file, or fail with a reason. -/
abbrev MetadataLoader := FileModel → Except String (Option Metadata)

/-- The loader that has nothing for any file. -/
def MetadataLoader.nothing : MetadataLoader :=
  fun _ => .ok none

/-- The side information of a file, and a notice if loading it failed. -/
def MetadataLoader.load (loader : MetadataLoader) (f : FileModel) : Metadata × List Notice :=
  match loader f with
  | .ok metadata => (metadata.getD {}, [])
  | .error reason => ({}, [.noMetadata f.path reason])

/-- A file in its final form. -/
structure AssembledFile where
  /-- Where it goes. -/
  path : String
  /-- Its text. -/
  content : String
  /-- What it imports. -/
  imports : List Import
  /-- Which imports are renamed. -/
  renames : List Rename
deriving DecidableEq, Repr, Inhabited

/-- The tokens of a file. -/
def FileModel.tokens (f : FileModel) (config : AssemblyConfig) (imports : List Import)
    (docs : Docs) : Except Fault (List Token) :=
  (f.emission config.base imports docs).toExcept.map fun pieces =>
    (({ unit := config.indent } : Writer).write pieces).tokens

/-- The resolution of a file, with what was reported on the way. -/
def FileModel.resolution (f : FileModel) (rules : NamingRules) :
    Except Fault (Resolution × List Notice) := do
  let symbols ← collect f.members
  let scan := Resolution.scan rules f.path symbols
  let codeSymbols ← collectCode f.members
  let merge := Resolution.merge rules f.path scan.resolution codeSymbols
  return ({ scan.resolution with imports := merge.imports }, scan.notices ++ merge.notices)

/-- Assembles a file, with what was reported on the way. -/
def assembleWithNotices (config : AssemblyConfig) (loader : MetadataLoader) (f : FileModel) :
    Except Fault (AssembledFile × List Notice) := do
  let (metadata, notices) := loader.load f
  let (resolution, resolved) ← f.resolution config.naming
  let tokens ← f.tokens config resolution.imports metadata.comments
  let file : AssembledFile :=
    { path := f.path
      content := Token.render resolution.renames tokens
      imports := resolution.imports
      renames := resolution.renames.entries }
  let counts : Notice :=
    .assembled f.path f.members.length file.imports.length file.renames.length
  return (file, notices ++ resolved ++ [counts])

/-- Assembles a file. -/
def assemble (config : AssemblyConfig) (loader : MetadataLoader) (f : FileModel) :
    Except Fault AssembledFile :=
  (assembleWithNotices config loader f).map (·.1)

/-- Assembles files in order, up to the first that fails. -/
def assembleAll (config : AssemblyConfig) (loader : MetadataLoader) (files : List FileModel) :
    Except Fault (List AssembledFile) :=
  files.mapM (assemble config loader)

end ModuleAssembly
