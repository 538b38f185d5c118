import ModuleAssembly.Text.Blank
import ModuleAssembly.Value.Basic

/-!
# Documents in block style

`Yaml.render` writes a value as a YAML document in block style: an entry or an item a line, nested
mappings two columns to the right, and a list at the column of its key. Texts with blank edges
stand in single quotes; other texts are written as they are, so `render` is for values whose texts
need no other quoting.
-/

namespace ModuleAssembly.Yaml

/-- A scalar as it is written. -/
def renderScalar : Scalar → String
  | .null => "null"
  | .bool b => if b then "true" else "false"
  | .int n => toString n
  | .float _ => ""
  | .moment s => s
  | .text s => if s.isEmpty || Text.trim s != s then "'" ++ s ++ "'" else s

mutual

/-- The lines of a value. -/
def renderLines : Value → List String
  | .scalar s => [renderScalar s]
  | .list items => renderItems items
  | .mapping entries => renderEntries entries

/-- The lines of the items of a list, the first of each after a dash. -/
def renderItems : List Value → List String
  | [] => []
  | item :: items =>
    (match renderLines item with
      | [] => ["-"]
      | line :: lines => ("- " ++ line) :: lines.map ("  " ++ ·)) ++ renderItems items

/-- The lines of the entries of a mapping. -/
def renderEntries : List (Scalar × Value) → List String
  | [] => []
  | (key, .scalar s) :: entries =>
    (renderScalar key ++ ": " ++ renderScalar s) :: renderEntries entries
  | (key, .list items) :: entries =>
    (renderScalar key ++ ":") :: renderItems items ++ renderEntries entries
  | (key, .mapping inner) :: entries =>
    (renderScalar key ++ ":") :: (renderEntries inner).map ("  " ++ ·) ++ renderEntries entries

end

/-- The document of a value. -/
def render (v : Value) : String :=
  String.join ((renderLines v).map (· ++ "\n"))

end ModuleAssembly.Yaml
