import ModuleAssembly.Text.Cut
import ModuleAssembly.Text.LetterCase

/-!
# Names of generated code

The module of a descriptor's file, and the spellings of fields and methods. `snakeToCamel` removes
the underscores of a name and puts the letter after each in upper case; `lowerFirst` puts the first
letter of a name in lower case.
-/

namespace ModuleAssembly.Generation

/-- The module generated for a file: its path without the extension. -/
def moduleName (file : String) : String :=
  Text.withoutEnd ".proto" file

/-- A part of a name with its first character in upper case. -/
def capitalized : List Char → List Char
  | [] => []
  | c :: cs => Text.upper c ++ cs

/-- The parts of a name joined, the later ones capitalised. -/
def joinParts : List (List Char) → List Char
  | [] => []
  | first :: others => first ++ others.flatMap capitalized

/-- The name without underscores, each part after one capitalised. -/
def snakeToCamel (name : String) : String :=
  String.ofList (joinParts (Text.partsAt '_' name.toList))

/-- The name with its first character in lower case. -/
def lowerFirst (name : String) : String :=
  match name.toList with
  | [] => ""
  | c :: cs => String.ofList (Text.lower c ++ cs)

end ModuleAssembly.Generation
