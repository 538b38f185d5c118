import ModuleAssembly.Association
import ModuleAssembly.Notice
import ModuleAssembly.Path
import ModuleAssembly.Rename

/-!
# Resolving imports

Given the symbols that the declarations of a file use, `resolve` decides what the file imports and
under which names. Each symbol is imported once, at its first use; symbols of the file's own module
are not imported. The first symbol to claim a name keeps it. A later symbol of the same name goes by
an alias, the name with a suffix and the next number for which this is no local name yet.

`mergeUnrenamed` adds the symbols of code blocks, which are imported under their own names even
where a name is taken.
-/

namespace ModuleAssembly

/-- An import: a symbol, and the alias it is bound to if it does not keep its name. -/
structure Import where
  /-- The imported symbol. -/
  symbol : Symbol
  /-- The name it is bound to, if that is not its own. -/
  newName : Option String := none
deriving DecidableEq, Repr, Inhabited

namespace Import

/-- The name that an import binds. The empty alias counts as none. -/
def localName (i : Import) : String :=
  (i.newName.filter (· != "")).getD i.symbol.name

end Import

/-- The local names of a file, with the symbols that hold them, and the last number used in an alias
of each name. -/
structure SeenNames where
  /-- The holder of each local name. -/
  bound : List (String × Symbol) := []
  /-- The last number given out for each name. -/
  counters : List (String × Nat) := []
deriving DecidableEq, Repr, Inhabited

namespace SeenNames

/-- The holder of a name. -/
def holder? (s : SeenNames) (name : String) : Option Symbol :=
  s.bound.lookup name

/-- Whether a name is taken. -/
def isBound (s : SeenNames) (name : String) : Bool :=
  Association.contains s.bound name

/-- Gives a name to a symbol. -/
def bind (s : SeenNames) (name : String) (symbol : Symbol) : SeenNames :=
  { s with bound := Association.insert s.bound name symbol }

/-- The last number given out for a name, zero before the first. -/
def counter (s : SeenNames) (name : String) : Nat :=
  (s.counters.lookup name).getD 0

/-- Records the last number given out for a name. -/
def setCounter (s : SeenNames) (name : String) (k : Nat) : SeenNames :=
  { s with counters := Association.insert s.counters name k }

/-- Gives out the next number for a name. -/
def nextIndex (s : SeenNames) (name : String) : Nat × SeenNames :=
  let k := s.counter name + 1
  (k, s.setCounter name k)

/-- The alias of a name with a number. -/
def numbered (name suffix : String) (k : Nat) : String :=
  name ++ suffix ++ toString k

/-- The least number after the last one given out whose alias is not taken. Of one more candidate
than there are names taken, one is free. -/
def freeIndex (s : SeenNames) (name suffix : String) : Nat :=
  let candidates := List.range' (s.counter name + 1) (s.bound.length + 1)
  (candidates.find? fun k => !s.isBound (numbered name suffix k)).getD
    (s.counter name + s.bound.length + 1)

/-- Gives out the next alias for a name. -/
def nextAlias (s : SeenNames) (name suffix : String) : String × SeenNames :=
  let k := s.freeIndex name suffix
  (numbered name suffix k, s.setCounter name k)

end SeenNames

/-- What a file imports, and which of its symbols are renamed. -/
structure Resolution where
  /-- The renames. -/
  renames : RenameTable := {}
  /-- The imports, in order. -/
  imports : List Import := []
deriving DecidableEq, Repr, Inhabited

/-- How names are chosen: what stands between a name and its number, and which extensions a path
loses to become a module. -/
structure NamingRules where
  /-- What stands between a name and its number. -/
  suffix : String := "_autoresolved_"
  /-- The extensions of source files. -/
  extensions : List String := [".ts", ".tsx"]
deriving DecidableEq, Repr, Inhabited

namespace Resolution

/-- The state of the scan over the symbols of a file. -/
structure Scan where
  /-- The symbols met so far. -/
  met : List Symbol := []
  /-- The local names so far. -/
  seen : SeenNames := {}
  /-- The resolution so far. -/
  resolution : Resolution := {}
  /-- The notices so far. -/
  notices : List Notice := []
deriving Repr, Inhabited

/-- Imports a symbol that claims its name first. -/
def Scan.keep (s : Scan) (symbol : Symbol) : Scan :=
  { s with
    seen := s.seen.bind symbol.name symbol
    resolution := { s.resolution with imports := s.resolution.imports ++ [⟨symbol, none⟩] } }

/-- Imports a symbol under an alias. -/
def Scan.rename (suffix : String) (s : Scan) (symbol keeper : Symbol) : Scan :=
  let (name, seen) := s.seen.nextAlias symbol.name suffix
  { s with
    seen := seen.bind name symbol
    resolution :=
      { renames := s.resolution.renames.add ⟨symbol, name, keeper⟩
        imports := s.resolution.imports ++ [⟨symbol, some name⟩] }
    notices := s.notices ++ [.renamed symbol name keeper] }

/-- Takes the next symbol into account. -/
def Scan.step (rules : NamingRules) (path : String) (s : Scan) (symbol : Symbol) : Scan :=
  if s.met.contains symbol then s
  else
    let s := { s with met := symbol :: s.met }
    if Path.isSelf symbol.module path rules.extensions then s
    else
      match s.seen.holder? symbol.name with
      | none => s.keep symbol
      | some keeper => s.rename rules.suffix symbol keeper

/-- The scan over the symbols of a file. -/
def scan (rules : NamingRules) (path : String) (symbols : List Symbol) : Scan :=
  symbols.foldl (Scan.step rules path) {}

/-- Decides the imports of a file at `path` whose declarations use `symbols`. -/
def resolve (rules : NamingRules) (path : String) (symbols : List Symbol) : Resolution :=
  (scan rules path symbols).resolution

/-- The state of the merge of symbols that keep their names. -/
structure Merge where
  /-- The imports so far. -/
  imports : List Import
  /-- The holder of each local name. -/
  bound : List (String × Symbol)
  /-- The notices so far. -/
  notices : List Notice := []
deriving Repr, Inhabited

/-- Imports the next symbol under its own name, unless it is imported already or of the file's own
module. -/
def Merge.step (rules : NamingRules) (path : String) (m : Merge) (symbol : Symbol) : Merge :=
  if m.imports.any (·.symbol == symbol) || Path.isSelf symbol.module path rules.extensions then m
  else
    let imports := m.imports ++ [⟨symbol, none⟩]
    match m.bound.lookup symbol.name with
    | some holder =>
      { m with imports, notices := m.notices ++ [.sharedName path symbol holder] }
    | none => { m with imports, bound := Association.insert m.bound symbol.name symbol }

/-- The merge of symbols into a resolution. -/
def merge (rules : NamingRules) (path : String) (r : Resolution) (symbols : List Symbol) : Merge :=
  let bound := Association.ofList (r.imports.map fun i => (i.localName, i.symbol))
  symbols.foldl (Merge.step rules path) { imports := r.imports, bound }

/-- Adds imports for symbols that take no part in renaming. -/
def mergeUnrenamed (rules : NamingRules) (path : String) (r : Resolution) (symbols : List Symbol) :
    Resolution :=
  { r with imports := (merge rules path r symbols).imports }

end Resolution

end ModuleAssembly
