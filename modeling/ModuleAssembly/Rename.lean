import ModuleAssembly.Symbol

/-!
# Renames

A `Rename` gives a symbol another name in one file, because a symbol of the same name was there
first. A `RenameTable` holds the renames of a file in order, one a symbol; adding a rename for a
symbol that has one replaces it in its place.
-/

namespace ModuleAssembly

/-- A symbol that goes by another name. -/
structure Rename where
  /-- The renamed symbol. -/
  symbol : Symbol
  /-- The name it goes by. -/
  newName : String
  /-- The symbol that keeps the name. -/
  keeper : Symbol
deriving DecidableEq, Repr, Inhabited

/-- The renames of a file. -/
structure RenameTable where
  /-- The renames, in the order in which their symbols were first renamed. -/
  entries : List Rename := []
deriving DecidableEq, Repr, Inhabited

namespace RenameTable

/-- Whether a symbol is renamed. -/
def contains (t : RenameTable) (s : Symbol) : Bool :=
  t.entries.any (·.symbol == s)

/-- Adds a rename, in place of the one its symbol has. -/
def add (t : RenameTable) (r : Rename) : RenameTable :=
  if t.contains r.symbol then
    ⟨t.entries.map fun entry => if entry.symbol == r.symbol then r else entry⟩
  else ⟨t.entries ++ [r]⟩

/-- The name that a symbol goes by, if it is renamed. -/
def aliasOf? (t : RenameTable) (s : Symbol) : Option String :=
  (t.entries.find? (·.symbol == s)).map (·.newName)

/-- A row of the table of renames. -/
def row (r : Rename) : String :=
  "| \x60" ++ r.symbol.name ++ "\x60 | \x60" ++ r.symbol.module ++ "\x60 | \x60" ++ r.newName ++
    "\x60 | \x60" ++ r.keeper.module ++ "\x60 |"

/-- The renames as a table of a Markdown document. -/
def markdown (t : RenameTable) : String :=
  String.intercalate "\n"
    ("| Symbol | Module | Alias | Kept by |" :: "|--------|--------|-------|---------|" ::
      t.entries.map row)

end RenameTable

end ModuleAssembly
