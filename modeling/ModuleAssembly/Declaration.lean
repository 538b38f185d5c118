import ModuleAssembly.Code

/-!
# Declarations and files

What a generated file declares: interfaces, classes, enumerations, functions, constants and type
aliases. A `Member` of a file is one of these or a free code block, and a `FileModel` has a path, a
header comment and its members. The file is written in `emissionOrder`, the typed declarations
first and the code blocks after them, each group in its own order.
-/

namespace ModuleAssembly

/-- A property of an interface or class, or a constant of a file. -/
structure Property where
  /-- Its name. -/
  name : String
  /-- Its type, if it is written. -/
  type : Option TypeExpr := none
  /-- Whether it may be left out. -/
  isOptional : Bool := false
  /-- Whether it cannot be assigned. -/
  isReadonly : Bool := false
  /-- Whether it belongs to the class and not to its objects. -/
  isStatic : Bool := false
  /-- Its first value. -/
  initial : Option CodeBlock := none
  /-- Its documentation. -/
  doc : Option String := none
  /-- Whether other modules see it. -/
  exported : Bool := true
deriving Repr, Inhabited

/-- A parameter of a function. -/
structure Parameter where
  /-- Its name. -/
  name : String
  /-- Its type, if it is written. -/
  type : Option TypeExpr := none
  /-- Whether it may be left out. -/
  isOptional : Bool := false
  /-- The source text of its default value. -/
  default : Option String := none
deriving Repr, Inhabited

/-- A function, or a method of an interface or class. -/
structure Function where
  /-- Its name. -/
  name : String
  /-- Its parameters. -/
  parameters : List Parameter := []
  /-- Its result type, if it is written. -/
  result : Option TypeExpr := none
  /-- Its body. -/
  body : Option CodeBlock := none
  /-- Whether it is asynchronous. -/
  isAsync : Bool := false
  /-- Its documentation. -/
  doc : Option String := none
  /-- Whether other modules see it. -/
  exported : Bool := true
deriving Repr, Inhabited

/-- An interface. -/
structure Interface where
  /-- Its name. -/
  name : String
  /-- The types it extends. -/
  bases : List TypeExpr := []
  /-- Its properties. -/
  properties : List Property := []
  /-- Its methods. -/
  methods : List Function := []
  /-- Its documentation. -/
  doc : Option String := none
  /-- Whether other modules see it. -/
  exported : Bool := true
deriving Repr, Inhabited

/-- A class. -/
structure Class where
  /-- Its name. -/
  name : String
  /-- The type it extends. -/
  base : Option TypeExpr := none
  /-- The types it implements. -/
  interfaces : List TypeExpr := []
  /-- Its properties. -/
  properties : List Property := []
  /-- Its methods. -/
  methods : List Function := []
  /-- Its documentation. -/
  doc : Option String := none
  /-- Whether other modules see it. -/
  exported : Bool := true
  /-- Whether it has no objects of its own. -/
  isAbstract : Bool := false
deriving Repr, Inhabited

/-- The value of a constant of an enumeration. -/
inductive ConstantValue where
  /-- An integer. -/
  | int (value : Int)
  /-- A text. -/
  | text (value : String)
deriving DecidableEq, Repr, Inhabited

/-- A constant of an enumeration. -/
structure Constant where
  /-- Its name. -/
  name : String
  /-- Its value, if it is written. -/
  value : Option ConstantValue := none
  /-- Its documentation. -/
  doc : Option String := none
deriving DecidableEq, Repr, Inhabited

/-- An enumeration. -/
structure Enumeration where
  /-- Its name. -/
  name : String
  /-- Its constants. -/
  constants : List Constant := []
  /-- Its documentation. -/
  doc : Option String := none
  /-- Whether other modules see it. -/
  exported : Bool := true
  /-- Whether its constants are replaced by their values. -/
  isConst : Bool := false
deriving DecidableEq, Repr, Inhabited

/-- A type alias. -/
structure TypeAlias where
  /-- Its name. -/
  name : String
  /-- The type it stands for. -/
  type : TypeExpr
  /-- Its documentation. -/
  doc : Option String := none
  /-- Whether other modules see it. -/
  exported : Bool := true
deriving Repr, Inhabited

/-- A declaration with a name. -/
inductive Declaration where
  /-- An interface. -/
  | interface (value : Interface)
  /-- A class. -/
  | classType (value : Class)
  /-- An enumeration. -/
  | enumeration (value : Enumeration)
  /-- A function. -/
  | function (value : Function)
  /-- A constant. -/
  | constant (value : Property)
  /-- A type alias. -/
  | typeAlias (value : TypeAlias)
deriving Repr, Inhabited

namespace Declaration

/-- The name of a declaration. -/
def name : Declaration → String
  | .interface d => d.name
  | .classType d => d.name
  | .enumeration d => d.name
  | .function d => d.name
  | .constant d => d.name
  | .typeAlias d => d.name

/-- The documentation of a declaration. -/
def doc : Declaration → Option String
  | .interface d => d.doc
  | .classType d => d.doc
  | .enumeration d => d.doc
  | .function d => d.doc
  | .constant d => d.doc
  | .typeAlias d => d.doc

/-- The tag of the kind of a declaration in a model document. -/
def kind : Declaration → String
  | .interface _ => "interface"
  | .classType _ => "class"
  | .enumeration _ => "enum"
  | .function _ => "function"
  | .constant _ => "property"
  | .typeAlias _ => "type_alias"

end Declaration

/-- What stands in a file. -/
inductive Member where
  /-- A declaration with a name. -/
  | declaration (value : Declaration)
  /-- Free code. -/
  | code (value : CodeBlock)
deriving Repr, Inhabited

namespace Member

/-- The declaration that a member is, if it is one. -/
def declaration? : Member → Option Declaration
  | .declaration d => some d
  | .code _ => none

/-- The code block that a member is, if it is one. -/
def code? : Member → Option CodeBlock
  | .declaration _ => none
  | .code b => some b

/-- The tag of the kind of a member in a model document. -/
def kind : Member → String
  | .declaration d => d.kind
  | .code _ => "code_block"

/-- The name of a member, if it has one. -/
def name? (m : Member) : Option String :=
  m.declaration?.map Declaration.name

end Member

/-- A file to generate. -/
structure FileModel where
  /-- Where it goes, from the root of the generated files. -/
  path : String
  /-- Its header comment. -/
  comment : Option String := none
  /-- What stands in it. -/
  members : List Member := []
deriving Repr, Inhabited

namespace FileModel

/-- The declarations of a file, in order. -/
def declarations (f : FileModel) : List Declaration :=
  f.members.filterMap Member.declaration?

/-- The code blocks of a file, in order. -/
def codeBlocks (f : FileModel) : List CodeBlock :=
  f.members.filterMap Member.code?

/-- The members in the order in which they are written. -/
def emissionOrder (f : FileModel) : List Member :=
  f.declarations.map .declaration ++ f.codeBlocks.map .code

end FileModel

end ModuleAssembly
