import ModuleAssembly.Symbol

/-!
# Notices

What assembly reports on its way: renamed imports, code blocks that import a name twice, missing
side information, and a line of counts for each file. A notice has a level and a wording.
-/

namespace ModuleAssembly

/-- How much a notice matters. -/
inductive Level where
  /-- Of interest when tracing a run. -/
  | debug
  /-- Of interest always. -/
  | warning
deriving DecidableEq, Repr, Inhabited

/-- Something that assembly reports. -/
inductive Notice where
  /-- A symbol is renamed because another keeps its name. -/
  | renamed (symbol : Symbol) (newName : String) (keeper : Symbol)
  /-- A code block of a file imports a symbol whose name another import has. -/
  | sharedName (path : String) (symbol holder : Symbol)
  /-- The side information of a file could not be loaded. -/
  | noMetadata (path reason : String)
  /-- A file is done. -/
  | assembled (path : String) (members imports renames : Nat)
deriving DecidableEq, Repr, Inhabited

namespace Notice

/-- The level of a notice. -/
def level : Notice → Level
  | sharedName .. => .warning
  | _ => .debug

/-- The wording of a notice. -/
def message : Notice → String
  | renamed symbol name keeper =>
    "Renamed " ++ symbol.spec ++ " to " ++ name ++ " (name kept by " ++ keeper.spec ++ ")"
  | sharedName path symbol holder =>
    path ++ ": code block import " ++ symbol.spec ++ " shares its name with " ++ holder.spec
  | noMetadata path reason => "No metadata for " ++ path ++ ": " ++ reason
  | assembled path members imports renames =>
    "Assembled " ++ path ++ ": " ++ toString members ++ " declarations, " ++ toString imports ++
      " imports, " ++ toString renames ++ " renames"

end Notice

end ModuleAssembly
