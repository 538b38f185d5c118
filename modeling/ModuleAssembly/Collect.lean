import ModuleAssembly.Declaration

/-!
# The symbols of a file

`collect` lists the symbols that the declarations of a file use, in the order of the declarations
and, inside each, of its parts; `collectCode` lists those of its code blocks. Repeated symbols are
repeated. The body of a method of an interface counts, although it is not printed.

A code block with an unreadable type argument has no list of symbols, so both may fail.
-/

namespace ModuleAssembly

/-- The symbols of a type that may be left out. -/
def typeSymbols (t : Option TypeExpr) : Output Symbol :=
  .ofList (t.elim [] TypeExpr.symbols)

/-- The symbols of several types. -/
def typesSymbols (ts : List TypeExpr) : Output Symbol :=
  .ofList (TypeExpr.symbolsOfList ts)

/-- The symbols of a code block that may be left out. -/
def codeSymbols (b : Option CodeBlock) : Output Symbol :=
  b.elim .empty CodeBlock.symbols

/-- The symbols of a property. -/
def Property.symbols (p : Property) : Output Symbol :=
  typeSymbols p.type ++ codeSymbols p.initial

/-- The symbols of the parameters and the result of a function. -/
def Function.signatureSymbols (f : Function) : Output Symbol :=
  .concat (f.parameters.map fun p => typeSymbols p.type) ++ typeSymbols f.result

/-- The symbols of a function. -/
def Function.symbols (f : Function) : Output Symbol :=
  f.signatureSymbols ++ codeSymbols f.body

/-- The symbols of a declaration. Constants of enumerations have none. -/
def Declaration.symbols : Declaration → Output Symbol
  | .interface d =>
    typesSymbols d.bases ++ .concat (d.properties.map Property.symbols) ++
      .concat (d.methods.map Function.symbols)
  | .classType d =>
    typeSymbols d.base ++ typesSymbols d.interfaces ++
      .concat (d.properties.map Property.symbols) ++ .concat (d.methods.map Function.symbols)
  | .enumeration _ => .empty
  | .function d => d.symbols
  | .constant d => d.symbols
  | .typeAlias d => .ofList d.type.symbols

/-- The symbols of the declarations among the members of a file. -/
def collect (members : List Member) : Except Fault (List Symbol) :=
  (Output.concat ((members.filterMap Member.declaration?).map Declaration.symbols)).toExcept

/-- The symbols of the code blocks among the members of a file. -/
def collectCode (members : List Member) : Except Fault (List Symbol) :=
  (Output.concat ((members.filterMap Member.code?).map CodeBlock.symbols)).toExcept

end ModuleAssembly
