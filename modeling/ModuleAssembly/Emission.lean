import ModuleAssembly.Declaration
import ModuleAssembly.Resolution
import ModuleAssembly.Text.Comment
import ModuleAssembly.Text.Literal
import ModuleAssembly.Writer

/-!
# What is written for a file

The pieces that types, code blocks, declarations, imports and whole files are written as. An
emission does not depend on the state of the writer that takes it: indentation and line ends are
pieces, or are added by the writer. It may be cut short by a fault, and what came before it stands.

A file is written in sections with an empty line between them: the header comment, the imports, and
one section for each member, in the order of `FileModel.emissionOrder`.
-/

namespace ModuleAssembly

/-- Pieces of code, up to a fault. -/
abbrev Emission := Output Piece

/-! ## Building blocks -/

namespace Emission

/-- A text. -/
def text (s : String) : Emission :=
  .single (.text s)

/-- A text that is written under a condition. -/
def textIf (condition : Bool) (s : String) : Emission :=
  if condition then text s else .empty

/-- A text that is printed, or the fault for which there is none. -/
def printed (s : Except Fault String) : Emission :=
  match s with
  | .ok s => text s
  | .error fault => .stop fault

/-- Emissions with a text after each but the last. -/
def separated (sep : String) : List Emission → Emission
  | [] => .empty
  | e :: es => e ++ .concat (es.map (text sep ++ ·))

/-- An emission one level deeper. -/
def indented (e : Emission) : Emission :=
  .single .indent ++ e ++ .single .unindent

/-- An emission that ends at the start of a line. -/
def withFreshLine (e : Emission) : Emission :=
  e ++ .single .freshLine

end Emission

open Emission (text textIf printed separated indented withFreshLine)

/-! ## Types -/

namespace TypeExpr

mutual

/-- The pieces of a type. An element of an array with several choices stands in parentheses. -/
def pieces (inArray : Bool) : TypeExpr → List Piece
  | .symbol s => [.usage s]
  | .named name => [.text name]
  | .union first others =>
    let choices := first.pieces false ++ piecesAfter " | " others
    if inArray && !others.isEmpty then .text "(" :: choices ++ [.text ")"] else choices
  | .array element => element.pieces true ++ [.text "[]"]
  | .generic base args => base.pieces false ++ .text "<" :: listPieces args ++ [.text ">"]

/-- The pieces of several types with commas between them. -/
def listPieces : List TypeExpr → List Piece
  | [] => []
  | t :: ts => t.pieces false ++ piecesAfter ", " ts

/-- The pieces of several types, each after a separator. -/
def piecesAfter (sep : String) : List TypeExpr → List Piece
  | [] => []
  | t :: ts => .text sep :: t.pieces false ++ piecesAfter sep ts

end

/-- What is written for a type. -/
def emission (t : TypeExpr) : Emission :=
  .ofList (t.pieces false)

/-- What is written for a type that may be left out, after its colon. -/
def annotation (t : Option TypeExpr) : Emission :=
  t.elim .empty fun t => text ": " ++ t.emission

end TypeExpr

/-! ## Code -/

/-- What is written for a segment of a code block. -/
def Segment.emission : Segment → Emission
  | .text s => Emission.text s
  | .type t => t.emission
  | .literal a => printed a.literal
  | .string a => printed (a.described.map Text.quote)

namespace CodeBlock

/-- What is written for a code block. -/
def emission (b : CodeBlock) : Emission :=
  b.segments.flatMap Segment.emission

/-- What is written for a code block that may be left out, after its equals sign. -/
def assignment (b : Option CodeBlock) : Emission :=
  b.elim .empty fun b => text " = " ++ b.emission

/-- What is written for the body of a function. -/
def bodyEmission (b : CodeBlock) : Emission :=
  text " \x7b\n" ++ indented (withFreshLine b.emission) ++ text "\x7d\n"

end CodeBlock

/-! ## Parts of declarations -/

/-- What is written for documentation; nothing if there is none, or only empty text. -/
def docEmission (doc : Option String) : Emission :=
  doc.elim .empty fun doc => text (Text.docComment doc)

/-- The word in front of a declaration that other modules see. -/
def exportWord (exported : Bool) : String :=
  if exported then "export " else ""

/-- What is written for a parameter. A default value makes it optional by itself. -/
def Parameter.emission (p : Parameter) : Emission :=
  text p.name ++ textIf (p.isOptional && p.default.isNone) "?" ++ TypeExpr.annotation p.type ++
    p.default.elim .empty fun source => text (" = " ++ source)

namespace Function

/-- What is written for the name, the parameters and the result of a function. -/
def signature (f : Function) : Emission :=
  text (f.name ++ "(") ++ separated ", " (f.parameters.map Parameter.emission) ++ text ")" ++
    TypeExpr.annotation f.result

/-- What is written for the function after its signature, if it may lack a body. -/
def bodyOr (f : Function) (bodiless : String) : Emission :=
  f.body.elim (text bodiless) CodeBlock.bodyEmission

/-- What is written for a method of an interface, whose body is not printed. -/
def interfaceEmission (f : Function) : Emission :=
  docEmission f.doc ++ f.signature ++ text ";\n"

/-- What is written for a method of a class. -/
def classEmission (f : Function) : Emission :=
  docEmission f.doc ++ textIf f.isAsync "async " ++ f.signature ++ f.bodyOr ";\n"

end Function

/-- What is written for a property of an interface or class. -/
def Property.memberEmission (p : Property) : Emission :=
  docEmission p.doc ++ textIf p.isStatic "static " ++ textIf p.isReadonly "readonly " ++
    text p.name ++ textIf p.isOptional "?" ++ TypeExpr.annotation p.type ++
    CodeBlock.assignment p.initial ++ text ";\n"

/-- What is written for a constant of an enumeration. -/
def Constant.emission (c : Constant) : Emission :=
  docEmission c.doc ++
    match c.value with
    | none => text (c.name ++ ",\n")
    | some (.text s) => text (c.name ++ " = " ++ Text.quote s ++ ",\n")
    | some (.int n) =>
      printed ((Argument.int n).described.map fun number => c.name ++ " = " ++ number ++ ",\n")

/-- What is written for types after a word; nothing if there are none. -/
def heritage (word : String) (types : List TypeExpr) : Emission :=
  if types.isEmpty then .empty else text word ++ .ofList (TypeExpr.listPieces types)

/-- What is written for the body of an interface or class; `isBlank` says that it has none. -/
def braced (isBlank : Bool) (body : Emission) : Emission :=
  if isBlank then text " \x7b\x7d\n" else text " \x7b\n" ++ indented body ++ text "\x7d\n"

/-! ## Declarations -/

/-- What is written for an interface. -/
def Interface.emission (d : Interface) : Emission :=
  text (exportWord d.exported ++ "interface " ++ d.name) ++ heritage " extends " d.bases ++
    braced (d.properties.isEmpty && d.methods.isEmpty)
      (.concat (d.properties.map Property.memberEmission) ++
        .concat (d.methods.map Function.interfaceEmission))

/-- What is written for a class. An empty line stands before each method but a first member. -/
def Class.emission (d : Class) : Emission :=
  text (exportWord d.exported ++ (if d.isAbstract then "abstract " else "") ++ "class " ++
      d.name) ++
    heritage " extends " d.base.toList ++ heritage " implements " d.interfaces ++
    braced (d.properties.isEmpty && d.methods.isEmpty)
      (.concat (d.properties.map Property.memberEmission) ++
        textIf (!d.properties.isEmpty && !d.methods.isEmpty) "\n" ++
        separated "\n" (d.methods.map Function.classEmission))

/-- What is written for an enumeration. -/
def Enumeration.emission (d : Enumeration) : Emission :=
  text (exportWord d.exported ++ (if d.isConst then "const " else "") ++ "enum " ++ d.name ++
      " \x7b\n") ++
    indented (.concat (d.constants.map Constant.emission)) ++ text "\x7d\n"

/-- What is written for a function. -/
def Function.emission (d : Function) : Emission :=
  text (exportWord d.exported) ++ textIf d.isAsync "async " ++ text "function " ++ d.signature ++
    d.bodyOr " \x7b\x7d\n"

/-- What is written for a constant. Without a value it is only declared. -/
def Property.constantEmission (d : Property) : Emission :=
  text (exportWord d.exported ++ (if d.initial.isSome then "" else "declare ") ++ "const " ++
      d.name) ++
    TypeExpr.annotation d.type ++ CodeBlock.assignment d.initial ++ text ";\n"

/-- What is written for a type alias. -/
def TypeAlias.emission (d : TypeAlias) : Emission :=
  text (exportWord d.exported ++ "type " ++ d.name ++ " = ") ++ d.type.emission ++ text ";\n"

/-- Documentation for declarations without any, by their names. -/
abbrev Docs := List (String × String)

namespace Declaration

/-- The documentation of a declaration: its own, unless it is missing or empty, or that for its
name. -/
def docIn (docs : Docs) (d : Declaration) : Option String :=
  (d.doc.filter (· != "")).or (docs.lookup d.name)

/-- What is written for a declaration after its documentation. -/
def bodyEmission : Declaration → Emission
  | .interface d => d.emission
  | .classType d => d.emission
  | .enumeration d => d.emission
  | .function d => d.emission
  | .constant d => d.constantEmission
  | .typeAlias d => d.emission

/-- What is written for a declaration. -/
def emission (docs : Docs) (d : Declaration) : Emission :=
  docEmission (d.docIn docs) ++ d.bodyEmission

end Declaration

/-- What is written for a member of a file. -/
def Member.emission (docs : Docs) : Member → Emission
  | .declaration d => d.emission docs
  | .code b => b.emission

/-! ## Imports -/

namespace Import

/-- The name that orders an import among those of one name. -/
def aliasKey (i : Import) : String :=
  i.newName.getD ""

/-- The order of the imports in a statement: by name, then by alias. -/
def precedes (a b : Import) : Bool :=
  a.symbol.name < b.symbol.name || (a.symbol.name == b.symbol.name && a.aliasKey ≤ b.aliasKey)

/-- An import with the specifier under which a file imports its module. -/
def placed (base : List String) (file : String) (i : Import) : Except Fault (String × Import) :=
  (Path.specifier base i.symbol.module file).map (·, i)

/-- The statement that imports from one specifier. -/
def statement (specifier : String) (imports : List Import) : Emission :=
  text "import \x7b " ++
    separated ", " ((imports.mergeSort precedes).map fun i => .single (.binding i.symbol)) ++
    text (" \x7d from " ++ Text.quote specifier ++ ";\n")

/-- The statements of placed imports, in the order of their specifiers. -/
def statements (imports : List (String × Import)) : Emission :=
  let specifiers := (imports.map (·.1)).eraseDups.mergeSort fun a b => decide (a ≤ b)
  .concat (specifiers.map fun specifier =>
    statement specifier ((imports.filter (·.1 == specifier)).map (·.2)))

/-- The import statements of a file. -/
def block (base : List String) (file : String) (imports : List Import) : Emission :=
  match imports.mapM (placed base file) with
  | .ok imports => statements imports
  | .error fault => .stop fault

end Import

/-! ## Files -/

/-- The sections of a file. -/
def FileModel.sections (f : FileModel) (base : List String) (imports : List Import) (docs : Docs) :
    List Emission :=
  ((f.comment.filter (· != "")).map fun comment => text (Text.headerComment comment)).toList ++
    (if imports.isEmpty then [] else [Import.block base f.path imports]) ++
    f.emissionOrder.map fun m => withFreshLine (m.emission docs)

/-- What is written for a file. -/
def FileModel.emission (f : FileModel) (base : List String) (imports : List Import) (docs : Docs) :
    Emission :=
  separated "\n" (f.sections base imports docs)

end ModuleAssembly
