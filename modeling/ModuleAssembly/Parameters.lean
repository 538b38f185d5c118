import ModuleAssembly.Association
import ModuleAssembly.Config
import ModuleAssembly.Text.Blank
import ModuleAssembly.Text.Cut

/-!
# Parameters

The compiler hands over options as one text, `key=value` items with commas between.
`Parameters.ofText` reads it: items, keys and values lose their blank edges, empty items are
skipped, a key without a value has the empty one, and of a repeated key the last value counts.
`Parameters.options` decides the generation options, in which NestJS has the last word on names and
dates.
-/

namespace ModuleAssembly

/-- Parameters by their keys. -/
abbrev Parameters := List (String × String)

namespace Parameters

/-- The key and the value of an item: the text before its first equals sign and the text after. -/
def splitItem (item : String) : String × String :=
  let cs := item.toList
  (Text.trim (String.ofList (cs.takeWhile (· != '='))),
    Text.trim (String.ofList ((cs.dropWhile (· != '=')).drop 1)))

/-- The items of a text. -/
def items (s : String) : List String :=
  ((Text.parts ',' s).map Text.trim).filter (· != "")

/-- The parameters of a text. -/
def ofText (s : String) : Parameters :=
  Association.ofList ((items s).map splitItem)

/-- Whether a key has a value. -/
def hasValue (p : Parameters) (key value : String) : Bool :=
  p.lookup key == some value

/-- How long integers are typed. -/
def longType (p : Parameters) : LongType :=
  if p.hasValue "forceLong" "true" || p.hasValue "forceLong" "long" then .long
  else if p.hasValue "forceLong" "string" then .string
  else .number

/-- The generation options. -/
def options (p : Parameters) : GenerationOptions :=
  let nestJs := p.hasValue "nestJs" "true"
  { snakeToCamel := !p.hasValue "snakeToCamel" "false"
    longType := p.longType
    useOptionals := p.hasValue "useOptionals" "true"
    useDate := !p.hasValue "useDate" "false" && !nestJs
    lowerCaseMethods := p.hasValue "lowerCaseServiceMethods" "true" || nestJs
    stringEnums := p.hasValue "stringEnums" "true"
    returnObservable := nestJs && p.hasValue "returnObservable" "true"
    nestJs
    addUnrecognized := !p.hasValue "unrecognizedEnum" "false" }

end Parameters

end ModuleAssembly
