/-!
# Cutting text

`after?` and `before?` remove a given start or end of a text, where the text has it; `parts` cuts
a text at every occurrence of a character.
-/

namespace ModuleAssembly.Text

/-- The text after `start`, if it begins with it. -/
def after? (start s : String) : Option String :=
  if start.toList.isPrefixOf s.toList then
    some (String.ofList (s.toList.drop start.toList.length))
  else none

/-- The text before `tail`, if it ends with it. -/
def before? (tail s : String) : Option String :=
  if tail.toList.isSuffixOf s.toList then
    some (String.ofList (s.toList.take (s.toList.length - tail.toList.length)))
  else none

/-- The text without `start`, if it begins with it. -/
def withoutStart (start s : String) : String :=
  (after? start s).getD s

/-- The text without `tail`, if it ends with it. -/
def withoutEnd (tail s : String) : String :=
  (before? tail s).getD s

/-- The parts of a list between the elements equal to `mark`; at least one. -/
def partsAt (mark : Char) : List Char → List (List Char)
  | [] => [[]]
  | c :: rest =>
    if c = mark then [] :: partsAt mark rest
    else
      match partsAt mark rest with
      | part :: parts => (c :: part) :: parts
      | [] => [[c]]

/-- The parts of a text between the occurrences of a character. -/
def parts (mark : Char) (s : String) : List String :=
  (partsAt mark s.toList).map String.ofList

end ModuleAssembly.Text
