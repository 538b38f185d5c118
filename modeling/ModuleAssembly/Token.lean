import ModuleAssembly.Rename

/-!
# Tokens

Generated code is first a list of tokens: text, the places where a symbol is used, and the places
where an import binds it. `Token.resolve` turns a token into text once it is known which symbols are
renamed, and `Token.render` does so for a list of tokens.
-/

namespace ModuleAssembly

/-- A piece of generated code. -/
inductive Token where
  /-- Text. -/
  | text (s : String)
  /-- A place where the name of a symbol is written. -/
  | usage (symbol : Symbol)
  /-- A name that an import statement binds. -/
  | binding (symbol : Symbol)
deriving DecidableEq, Repr, Inhabited

namespace Token

/-- The alias of a symbol. The empty alias counts as none. -/
def aliasIn (table : RenameTable) (s : Symbol) : Option String :=
  (table.aliasOf? s).filter (· != "")

/-- The text of a token: a use of a renamed symbol is written by its alias, and its binding by
both names. -/
def resolve (table : RenameTable) : Token → String
  | .text s => s
  | .usage s => (aliasIn table s).getD s.name
  | .binding s =>
    match aliasIn table s with
    | some name => s.name ++ " as " ++ name
    | none => s.name

/-- The text of tokens. -/
def render (table : RenameTable) (tokens : List Token) : String :=
  String.join (tokens.map (resolve table))

end Token

end ModuleAssembly
