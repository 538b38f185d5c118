import ModuleAssembly.CommandLine.Run

/-!
# The command line program

Reads the files that a call names, asks `CommandLine.planOf` what to do, and does it.
-/

namespace ModuleAssembly

/-- What a path leads to on disk. A file that is no text holds no document either, so it stands for
one with a character that documents cannot have. A directory can be found but not read: of the
failures of that type only this one comes after the path was found, and so names no path. -/
def readPath (path : String) : IO Lookup := do
  try
    let bytes ← IO.FS.readBinFile (TreePath.ofText path).text
    return .found (.file ((String.fromUTF8? bytes).getD "\x00"))
  catch
    | .noFileOrDirectory _ _ _ => return .missing
    | .inappropriateType (some _) _ _ => return .missing
    | .inappropriateType none _ _ => return .found .directory
    | _ => return .refused

/-- What several paths lead to. -/
def readPaths (paths : List String) : IO CommandLine.Reader := do
  let nodes ← paths.mapM fun path => do return (path, ← readPath path)
  return fun path => (nodes.lookup path).getD .missing

/-- Writes a file, after the directories on the way to it. -/
def writePath (path : TreePath) (content : String) : IO Unit := do
  IO.FS.createDirAll path.parent.text
  IO.FS.writeFile path.text content

/-- Reads standard input to its end. -/
def readInput : IO (List UInt8) := do
  return (← (← IO.getStdin).readBinToEnd).toList

/-- Carries a plan out. -/
def carryOut (plan : CommandLine.Plan) : IO UInt32 := do
  try
    for (path, content) in plan.writes do
      writePath path content
    (← IO.getStderr).putStr plan.errorText
    let output ← IO.getStdout
    output.write ⟨plan.output.toArray⟩
    output.flush
    return UInt32.ofNat plan.status.exitCode
  catch _ => return UInt32.ofNat CommandLine.Status.failed.exitCode

end ModuleAssembly

open ModuleAssembly in
/-- Runs a call. -/
def main (args : List String) : IO UInt32 := do
  let command := CommandLine.Command.ofArguments args
  let read ← readPaths (command.elim [] (·.paths))
  let input ← if command.any (·.readsInput read) then readInput else pure []
  let base := (TreePath.ofText (← IO.currentDir).toString).names
  carryOut (CommandLine.planOf ⟨base, read, input⟩ args)
