/-!
# Symbols

A `Symbol` is what a module exports under a name: the name, and the module it comes from. It is
written `Name@module`, and `parse?` reads that form, cutting at the first `@`. Two symbols collide
when they share the name and come from different modules.
-/

namespace ModuleAssembly

/-- A name and the module that exports it. -/
structure Symbol where
  /-- The name the symbol is exported under. -/
  name : String
  /-- The module the symbol is imported from. -/
  module : String
deriving DecidableEq, Repr, Inhabited, Hashable

namespace Symbol

/-- The text before the first `@` and the text after it, if there is one. -/
def splitAtSign (cs : List Char) : Option (List Char × List Char) :=
  match cs.dropWhile (· != '@') with
  | [] => none
  | _ :: rest => some (cs.takeWhile (· != '@'), rest)

/-- Reads `Name@module`, with neither part empty. -/
def parse? (spec : String) : Option Symbol :=
  match splitAtSign spec.toList with
  | some (name, module) =>
    if name.isEmpty || module.isEmpty then none
    else some ⟨String.ofList name, String.ofList module⟩
  | none => none

/-- The written form of a symbol. -/
def spec (s : Symbol) : String :=
  s.name ++ "@" ++ s.module

/-- Whether two symbols have one name and two modules. -/
def collides (a b : Symbol) : Bool :=
  a.name == b.name && a.module != b.module

end Symbol

end ModuleAssembly
