import ModuleAssembly.Association
import ModuleAssembly.Text.Cut

/-!
# Trees of files

A `FileTree` holds files and directories by their places, the names on the way from the root. A
`TreePath` leads from the root, or from the working directory, through names and steps back; every
directory on the way must exist. `FileTree.lookUp` says what a path leads to, and `FileTree.write`
creates the directories on the way to a file and then the file, or replaces its text.

Names and paths have a greatest length in bytes. What is too long is not just missing: looking it up
fails.
-/

namespace ModuleAssembly

/-- A path as it is given. -/
structure TreePath where
  /-- Whether it starts at the root. -/
  absolute : Bool
  /-- Its names, and `..` for steps back. -/
  names : List String
deriving DecidableEq, Repr, Inhabited

namespace TreePath

/-- Reads a path; empty names and `.` lead nowhere. -/
def ofText (s : String) : TreePath :=
  ⟨(Text.after? "/" s).isSome, (Text.parts '/' s).filter fun name => name != "" && name != "."⟩

/-- The text of a path; the working directory itself is a single point. -/
def text (p : TreePath) : String :=
  if p.absolute then "/" ++ String.intercalate "/" p.names
  else if p.names.isEmpty then "."
  else String.intercalate "/" p.names

/-- The path that goes on from `base` by `p`, or `p` itself if it starts at the root. -/
def join (base p : TreePath) : TreePath :=
  if p.absolute then p else { base with names := base.names ++ p.names }

/-- The path without its last name. -/
def parent (p : TreePath) : TreePath :=
  { p with names := p.names.dropLast }

/-- The most bytes of a path. -/
def longest : Nat := 4095

/-- Whether a path is not too long. -/
def fits (p : TreePath) : Bool :=
  p.text.utf8ByteSize ≤ longest

/-- Whether a path holds the character NUL, which no name does. -/
def hasNul (p : TreePath) : Bool :=
  p.names.any fun name => name.toList.contains '\x00'

end TreePath

/-- What stands at a place. -/
inductive Node where
  /-- A directory. -/
  | directory
  /-- A file with its text. -/
  | file (content : String)
deriving DecidableEq, Repr, Inhabited

/-- What looking up a path gives. -/
inductive Lookup where
  /-- What it leads to. -/
  | found (node : Node)
  /-- It leads to nothing. -/
  | missing
  /-- It cannot be looked up. -/
  | refused
deriving DecidableEq, Repr, Inhabited

/-- Whether looking up a path gives something. -/
def Lookup.isFound : Lookup → Bool
  | found _ => true
  | _ => false

/-- A place: the names on the way from the root. -/
abbrev Place := List String

/-- Files and directories by their places. -/
structure FileTree where
  /-- All but the root, which is always there. -/
  nodes : List (Place × Node) := []
  /-- The working directory. -/
  workingDirectory : Place := []
deriving DecidableEq, Repr, Inhabited

namespace FileTree

/-- What stands at a place, if anything does. -/
def node? (t : FileTree) (place : Place) : Option Node :=
  if place.isEmpty then some .directory else t.nodes.lookup place

/-- Puts something at a place. -/
def put (t : FileTree) (place : Place) (n : Node) : FileTree :=
  { t with nodes := Association.insert t.nodes place n }

/-- The most bytes of a name. -/
def longestName : Nat := 255

/-- Whether a name can be one of a file: it holds no character NUL and is not too long. -/
def isName (name : String) : Bool :=
  !name.toList.contains '\x00' && name.utf8ByteSize ≤ longestName

/-- Where a path starts. -/
def start (t : FileTree) (p : TreePath) : Place :=
  if p.absolute then [] else t.workingDirectory

/-- Goes on from a directory by a name or a step back. -/
def step (t : FileTree) (place : Place) (name : String) : Option Place :=
  if t.node? place ≠ some .directory ∨ !isName name then none
  else if name = ".." then some place.dropLast
  else some (place ++ [name])

/-- What a way leads to from a place. A name is looked up only in a directory. -/
def lookUpFrom (t : FileTree) (place : Place) : List String → Lookup
  | [] => (t.node? place).elim .missing .found
  | name :: names =>
    if t.node? place ≠ some .directory then .missing
    else if longestName < name.utf8ByteSize then .refused
    else lookUpFrom t (if name = ".." then place.dropLast else place ++ [name]) names

/-- What a path leads to. -/
def lookUp (t : FileTree) (p : TreePath) : Lookup :=
  if p.hasNul then .missing
  else if !p.fits then .refused
  else t.lookUpFrom (t.start p) p.names

/-- Goes on from a directory by a name or a step back, creating a directory that is missing. Gives
the tree, and the place if the way is free. -/
def enter (t : FileTree) (place : Place) (name : String) : FileTree × Option Place :=
  match t.step place name with
  | none => (t, none)
  | some next =>
    match t.node? next with
    | some .directory => (t, some next)
    | some (.file _) => (t, none)
    | none => (t.put next .directory, some next)

/-- Creates the directories on a way. Gives the tree, and the place if the way is free. -/
def makeWay (t : FileTree) (place : Place) : List String → FileTree × Option Place
  | [] => (t, some place)
  | name :: names =>
    match t.enter place name with
    | (t, some place) => makeWay t place names
    | (t, none) => (t, none)

/-- Writes a file in a directory. -/
def writeIn (t : FileTree) (directory : Place) (name content : String) : Option FileTree :=
  match t.step directory name with
  | none => none
  | some place =>
    if name = ".." ∨ t.node? place = some .directory then none
    else some (t.put place (.file content))

/-- Writes a file, after the directories on the way to it. Gives the tree, and whether the file was
written; directories may have been created even if it was not. -/
def write (t : FileTree) (p : TreePath) (content : String) : FileTree × Bool :=
  if !p.parent.fits then (t, false)
  else
    match t.makeWay (t.start p) p.parent.names with
    | (t, none) => (t, false)
    | (t, some directory) =>
      match p.names.getLast?.filter fun _ => p.fits with
      | none => (t, false)
      | some name =>
        match t.writeIn directory name content with
        | some t => (t, true)
        | none => (t, false)

/-- Writes files in order, up to the first that cannot be written. -/
def writeAll (t : FileTree) : List (TreePath × String) → FileTree × Bool
  | [] => (t, true)
  | (p, content) :: rest =>
    match t.write p content with
    | (t, true) => writeAll t rest
    | (t, false) => (t, false)

/-- The tree with a working directory, and files in it by their paths. -/
def ofFiles (workingDirectory : Place) (files : List (String × String)) : FileTree :=
  let base : FileTree := { workingDirectory }
  let base := (base.makeWay [] workingDirectory).1
  (base.writeAll (files.map fun file => (TreePath.ofText file.1, file.2))).1

/-- The files below the working directory, by the paths that lead to them from there. -/
def filesBelow (t : FileTree) : List (String × String) :=
  t.nodes.filterMap fun entry =>
    match entry.2 with
    | .file content =>
      if t.workingDirectory.isPrefixOf entry.1 then
        some (String.intercalate "/" (entry.1.drop t.workingDirectory.length), content)
      else none
    | .directory => none

end FileTree

end ModuleAssembly
