import ModuleAssembly.Validation.Basic

/-!
# How deep types are nested

A type is read at a place within other types, and a `Nesting` is what the place depends on: the
level of the innermost type around it, and the leading compound form around it. A type is one level
above the place where it is read; a compound form that leads all that are around it takes one level
more. No type is read above `Nesting.limit`, so `Nesting.allow` bounds how deep types are nested,
whatever their forms.
-/

namespace ModuleAssembly

open Validated (fail)

/-- The forms of the types that hold other types. -/
inductive Compound where
  /-- A union of choices. -/
  | union
  /-- An array of elements. -/
  | array
  /-- A generic type and its arguments. -/
  | generic
deriving DecidableEq, Repr, Inhabited

/-- The position of a compound form in the order of the forms. -/
def Compound.rank : Compound → Nat
  | .union => 0
  | .array => 1
  | .generic => 2

/-- A place for a type within other types. -/
structure Nesting where
  /-- The level of the innermost type around the place. -/
  level : Nat
  /-- The first in order of the compound forms around the place. -/
  leading : Option Compound
deriving DecidableEq, Repr

namespace Nesting

/-- The highest level of a type. -/
def limit : Nat := 255

/-- The place of a type that lies in no other. -/
def outermost : Nesting :=
  ⟨0, none⟩

/-- Whether a compound form comes before all those around a place. -/
def isLedBy (n : Nesting) (form : Compound) : Bool :=
  n.leading.elim true fun other => form.rank < other.rank

/-- The inside of a type that holds no other type. -/
def simple (n : Nesting) : Nesting :=
  { n with level := n.level + 1 }

/-- The inside of a type of a compound form. -/
def compound (n : Nesting) (form : Compound) : Nesting :=
  if n.isLedBy form then ⟨n.level + 2, some form⟩ else n.simple

/-- What is read of a type, given its inside, unless it lies too deep. -/
def allow {α : Type} (inside : Nesting) (result : Validated α) : Validated α :=
  if inside.level ≤ limit then result else fail .tooDeep

end Nesting

end ModuleAssembly
