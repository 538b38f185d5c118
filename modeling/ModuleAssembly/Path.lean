import ModuleAssembly.Fault
import ModuleAssembly.Text.Cut

/-!
# Paths and module specifiers

Paths are resolved lexically: an empty segment and `.` stay where they are, and `..` goes one level
up, but not above the root. `Path.relative` is the way from one resolved path to another.

A module path that starts with `./` is counted from the root of the generated files, a directory
whose components from the root of all files are the `base`. `Path.specifier` counts it from the
directory of the importing file instead; all other module paths name packages and pass. The base
matters only where `..` leads above it.

`Path.moduleOf` is the module that a file is known by, its path without its extension, and
`Path.isSelf` says whether a module path names the file itself.
-/

namespace ModuleAssembly.Path

/-- The mark in front of a module path counted from the root of the generated files. -/
def localMark : String := "./"

/-- Goes on from resolved components by one segment. -/
def step (resolved : List String) (segment : String) : List String :=
  if segment = "" ∨ segment = "." then resolved
  else if segment = ".." then resolved.dropLast
  else resolved ++ [segment]

/-- The components that a list of segments leads to from the components of a directory. -/
def resolve (base segments : List String) : List String :=
  segments.foldl step base

/-- The segments of a path. -/
def segments (path : String) : List String :=
  Text.parts '/' path

/-- Where a path starts: at the root if it says so, or at the base. -/
def origin (base : List String) (path : String) : List String :=
  if (Text.after? "/" path).isSome then [] else base

/-- The way from one resolved path to another: up to where they part, and down again. -/
def relative : List String → List String → List String
  | a :: source, b :: target =>
    if a = b then relative source target
    else List.replicate (source.length + 1) ".." ++ b :: target
  | source, target => List.replicate source.length ".." ++ target

/-- A path of components; that of none is `.`. -/
def joined (components : List String) : String :=
  if components.isEmpty then "." else String.intercalate "/" components

/-- The components of the directory of a file. -/
def directory (base : List String) (file : String) : List String :=
  let path := Text.withoutStart localMark file
  resolve (origin base path) (segments path).dropLast

/-- The specifier under which a file imports a module. -/
def specifier (base : List String) (module file : String) : Except Fault String :=
  match Text.after? localMark module with
  | none => .ok module
  | some path =>
    if path = "" then .error .emptyPath
    else
      let way :=
        joined (relative (directory base file) (resolve (origin base path) (segments path)))
      .ok (if (Text.after? "../" way).isSome then way else localMark ++ way)

/-- The module that a file is known by: its path without the first of the extensions that it ends
with. The empty extension takes the whole path away. -/
def moduleOf (file : String) (extensions : List String) : String :=
  let path := Text.withoutStart localMark file
  match extensions.find? fun ext => (Text.before? ext path).isSome with
  | some ext => if ext = "" then "" else Text.withoutEnd ext path
  | none => path

/-- Whether a module path names the file itself. Only a path counted from the root can. -/
def isSelf (module file : String) (extensions : List String) : Bool :=
  Text.after? localMark module == some (moduleOf file extensions)

end ModuleAssembly.Path
