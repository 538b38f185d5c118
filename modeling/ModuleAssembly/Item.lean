import ModuleAssembly.Emission
import ModuleAssembly.Value.Basic

/-!
# What is no declaration

An `Item` is anything that may be handed over to be written, whether it can be written or not.
Written as a declaration, an item must be a member of a file; written as a type, a type expression.
Everything else is a fault that names the kind of the item.
-/

namespace ModuleAssembly

/-- Something that is handed over to be written. -/
inductive Item where
  /-- A member of a file. -/
  | member (value : Member)
  /-- A type expression. -/
  | type (value : TypeExpr)
  /-- A parameter of a function. -/
  | parameter (value : Parameter)
  /-- A constant of an enumeration. -/
  | constant (value : Constant)
  /-- A file. -/
  | file (value : FileModel)
  /-- A value of a document. -/
  | value (value : Value)

namespace Item

/-- The name of the kind of a value, as messages give it. -/
def valueKind : Value → String
  | .null => "NoneType"
  | .bool _ => "bool"
  | .int _ => "int"
  | .float _ => "float"
  | .text _ => "str"
  | .scalar (.moment _) => "datetime"
  | .list _ => "list"
  | .mapping _ => "dict"

/-- The name of the kind of an item, as messages give it. -/
def kindName : Item → String
  | .member (.declaration (.interface _)) => "InterfaceSpec"
  | .member (.declaration (.classType _)) => "ClassSpec"
  | .member (.declaration (.enumeration _)) => "EnumSpec"
  | .member (.declaration (.function _)) => "FunctionSpec"
  | .member (.declaration (.constant _)) => "PropertySpec"
  | .member (.declaration (.typeAlias _)) => "TypeAliasSpec"
  | .member (.code _) => "CodeBlock"
  | .type t => t.kindName
  | .parameter _ => "ParameterSpec"
  | .constant _ => "EnumConstant"
  | .file _ => "GeneratedFile"
  | .value v => valueKind v

/-- What is written for an item as a declaration. -/
def asDeclaration (docs : Docs) : Item → Emission
  | .member m => m.emission docs
  | item => .stop (.unhandledDeclaration item.kindName)

/-- What is written for an item as a type. -/
def asType : Item → Emission
  | .type t => t.emission
  | item => .stop (.unhandledType item.kindName)

end Item

end ModuleAssembly
