import ModuleAssembly.Fault
import ModuleAssembly.Symbol

/-!
# Type expressions

A `TypeExpr` is a symbol, a bare name that needs no import, a union of one or more choices, an
array, or a generic type with its arguments. `symbols` lists the symbols in it from left to right;
`ofShorthand?` reads the short form, a symbol for a text with an `@` and a bare name for any other.

`described` is the text of a type expression where a text is asked for and a type is given. It is
put together by calls, one inside the other as the types are; where these are nested deeper than
`callLimit`, there is no text.
-/

namespace ModuleAssembly

/-- A type as generated code writes it. -/
inductive TypeExpr where
  /-- An imported type. -/
  | symbol (symbol : Symbol)
  /-- A name that needs no import. -/
  | named (name : String)
  /-- One of several types. -/
  | union (first : TypeExpr) (others : List TypeExpr)
  /-- An array of one type. -/
  | array (element : TypeExpr)
  /-- A type with arguments. -/
  | generic (base : TypeExpr) (args : List TypeExpr)
deriving Repr, Inhabited

namespace TypeExpr

mutual

/-- The symbols of a type, from left to right, repeated ones included. -/
def symbols : TypeExpr → List Symbol
  | .symbol s => [s]
  | .named _ => []
  | .union first others => first.symbols ++ symbolsOfList others
  | .array element => element.symbols
  | .generic base args => base.symbols ++ symbolsOfList args

/-- The symbols of several types. -/
def symbolsOfList : List TypeExpr → List Symbol
  | [] => []
  | t :: ts => t.symbols ++ symbolsOfList ts

end

/-- The type that a short form stands for. -/
def ofShorthand? (s : String) : Option TypeExpr :=
  if s.toList.contains '@' then (Symbol.parse? s).map .symbol else some (.named s)

/-- The name of the kind of a type, as messages give it. -/
def kindName : TypeExpr → String
  | .symbol _ => "SymbolReference"
  | .named _ => "NamedType"
  | .union .. => "UnionType"
  | .array _ => "ArrayType"
  | .generic .. => "GenericType"

/-- A list of described parts. -/
def describedList (parts : List String) : String :=
  "[" ++ String.intercalate ", " parts ++ "]"

/-- The fields of a type, as `name=value`, from the described parts of each list. -/
def describedFields (kind : String) (fields : List (String × String)) : List String :=
  (("kind", Text.displayed kind) :: fields).map fun field => field.1 ++ "=" ++ field.2

mutual

/-- The described fields of a type. -/
def fields : TypeExpr → List String
  | .symbol s =>
    describedFields "symbol"
      [("display_name", Text.displayed s.name), ("module_path", Text.displayed s.module)]
  | .named name => describedFields "named" [("name", Text.displayed name)]
  | .union first others =>
    describedFields "union" [("choices", describedList (first.nested :: nestedList others))]
  | .array element => describedFields "array" [("element", element.nested)]
  | .generic base args =>
    describedFields "generic" [("base", base.nested), ("args", describedList (nestedList args))]

/-- The text of a type inside another one. -/
def nested (t : TypeExpr) : String :=
  t.kindName ++ "(" ++ String.intercalate ", " t.fields ++ ")"

/-- The texts of several types inside another one. -/
def nestedList : List TypeExpr → List String
  | [] => []
  | t :: ts => t.nested :: nestedList ts

end

mutual

/-- How many calls for the text of a type are nested, those for the names in it apart: the text of
an array takes four, and five where there is a list of types. -/
def callDepth : TypeExpr → Nat
  | .symbol _ | .named _ => 0
  | .union first others => 5 + max first.callDepth (listCallDepth others)
  | .array element => 4 + element.callDepth
  | .generic base args => max (4 + base.callDepth) (5 + listCallDepth args)

/-- The same for the deepest of several types. -/
def listCallDepth : List TypeExpr → Nat
  | [] => 0
  | t :: ts => max t.callDepth (listCallDepth ts)

end

/-- How many calls for the text of a type may be nested: there is room for a thousand, of which five
are those that write the file around it, and five are for a name in the type. -/
def callLimit : Nat := 990

/-- The text of a type: a symbol in its written form, any other type by its fields. -/
def described (t : TypeExpr) : Except Fault String :=
  if callLimit < t.callDepth then .error .typeTooDeep
  else
    match t with
    | .symbol s => .ok s.spec
    | t => .ok (String.intercalate " " t.fields)

end TypeExpr

end ModuleAssembly
