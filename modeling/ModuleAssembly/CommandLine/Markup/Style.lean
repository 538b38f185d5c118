import ModuleAssembly.Text.Blank
import ModuleAssembly.Text.LetterCase
import ModuleAssembly.Text.Integer

/-!
# Styles of console text

A style is a list of words: attributes, each of which may be negated, a colour, a background colour
after `on`, and an address after `link`. `Style.normal` spells a style in one way, so that two
spellings of one style compare equal; words that make no style are compared in lower case.
-/

namespace ModuleAssembly.CommandLine.Markup

/-! ## Colours -/

/-- The names of colours that come in shades with a number, and the numbers of each. -/
def shades : List (String × List Nat) := [
  ("aquamarine", [1, 3]), ("blue", [1, 3]), ("chartreuse", [1, 2, 3, 4]), ("cornsilk", [1]),
  ("cyan", [1, 2, 3]), ("dark_olive_green", [1, 2, 3]), ("dark_orange", [3]),
  ("dark_sea_green", [1, 2, 3, 4]), ("dark_slate_gray", [1, 2, 3]), ("deep_pink", [1, 2, 3, 4]),
  ("deep_sky_blue", [1, 2, 3, 4]), ("dodger_blue", [1, 2, 3]), ("gold", [1, 3]),
  ("gray", [0, 3, 7, 11, 15, 19, 23, 27, 30, 35, 37, 39, 42, 46, 50, 53, 54, 58, 62, 63, 66, 69, 70,
    74, 78, 82, 84, 85, 89, 93, 100]),
  ("green", [1, 3, 4]),
  ("grey", [0, 3, 7, 11, 15, 19, 23, 27, 30, 35, 37, 39, 42, 46, 50, 53, 54, 58, 62, 63, 66, 69, 70,
    74, 78, 82, 84, 85, 89, 93, 100]),
  ("honeydew", [2]), ("hot_pink", [2, 3]), ("indian_red", [1]), ("khaki", [1, 3]),
  ("light_cyan", [1, 3]), ("light_goldenrod", [1, 2, 3]), ("light_pink", [1, 3, 4]),
  ("light_salmon", [1, 3]), ("light_sky_blue", [1, 3]), ("light_steel_blue", [1, 3]),
  ("light_yellow", [3]), ("magenta", [1, 2, 3]), ("medium_orchid", [1, 3]),
  ("medium_purple", [1, 2, 3, 4]), ("misty_rose", [1, 3]), ("navajo_white", [1, 3]),
  ("orange", [1, 3, 4]), ("orange_red", [1]), ("orchid", [1, 2]), ("pale_green", [1, 3]),
  ("pale_turquoise", [1, 4]), ("pale_violet_red", [1]), ("pink", [1, 3]), ("plum", [1, 2, 3, 4]),
  ("purple", [3, 4]), ("red", [1, 3]), ("royal_blue", [1]), ("salmon", [1]),
  ("sea_green", [1, 2, 3]), ("sky_blue", [1, 2, 3]), ("slate_blue", [1, 3]),
  ("spring_green", [1, 2, 3, 4]), ("steel_blue", [1, 3]), ("thistle", [1, 3]),
  ("turquoise", [2, 4]), ("wheat", [1, 4]), ("yellow", [1, 2, 3, 4])]

/-- The names of colours without a number. -/
def plainColors : List String := [
  "default", "black", "red", "green", "yellow", "blue", "magenta", "cyan", "white", "bright_black",
  "bright_red", "bright_green", "bright_yellow", "bright_blue", "bright_magenta", "bright_cyan",
  "bright_white", "blue_violet", "cadet_blue", "cornflower_blue", "dark_blue", "dark_cyan",
  "dark_goldenrod", "dark_green", "dark_khaki", "dark_magenta", "dark_orange", "dark_red",
  "dark_sea_green", "dark_turquoise", "dark_violet", "green_yellow", "hot_pink", "indian_red",
  "light_coral", "light_green", "light_sea_green", "light_slate_blue", "light_slate_gray",
  "light_slate_grey", "light_steel_blue", "medium_orchid", "medium_purple", "medium_spring_green",
  "medium_turquoise", "medium_violet_red", "navy_blue", "orchid", "purple", "rosy_brown",
  "sandy_brown", "steel_blue", "tan", "violet"]

/-- The names of all colours. -/
def colorNames : List String :=
  plainColors ++ shades.flatMap fun entry => entry.2.map fun n => entry.1 ++ toString n

/-- What a word for a colour turned out to be. -/
inductive ColorReading where
  /-- A colour. -/
  | color
  /-- No colour. -/
  | unknown
  /-- A colour of which a part is left out, which is an error of its own. -/
  | broken
deriving DecidableEq, Repr, Inhabited

/-- What stands in the brackets after a word, which end the text. -/
def bracketed? (word : String) (cs : List Char) : Option (List Char) :=
  let start := word.toList ++ ['(']
  if start.isPrefixOf cs && cs.getLast? == some ')' then some ((cs.drop start.length).dropLast)
  else none

/-- Reads the parts of a colour: three numbers below 256. -/
def readParts (cs : List Char) : ColorReading :=
  let parts := cs.splitOn ','
  if cs.isEmpty || !cs.all (fun c => c.isDigit || c == ',') || parts.length != 3 then .unknown
  else if parts.any List.isEmpty then .broken
  else if parts.all (Text.digitsValue · < 256) then .color
  else .unknown

/-- Reads a colour in lower case: a name, six hexadecimal digits, a number or three parts. -/
def readColor (word : String) : ColorReading :=
  let isHex (c : Char) : Bool := c.isDigit || ('a' ≤ c && c ≤ 'f')
  match word.toList, bracketed? "color" word.toList, bracketed? "rgb" word.toList with
  | '#' :: cs, _, _ => if cs.length = 6 && cs.all isHex then .color else .unknown
  | _, some cs, _ =>
    if !cs.isEmpty && cs.length ≤ 3 && cs.all Char.isDigit && Text.digitsValue cs < 256 then .color
    else .unknown
  | _, none, some cs => readParts cs
  | _, none, none => if colorNames.contains word then .color else .unknown

/-! ## Styles -/

/-- The attributes in the order in which a style is spelled, with their short names. -/
def attributeNames : List (String × List String) := [
  ("bold", ["b"]), ("dim", ["d"]), ("italic", ["i"]), ("underline", ["u"]), ("blink", []),
  ("blink2", []), ("reverse", ["r"]), ("conceal", ["c"]), ("strike", ["s"]),
  ("underline2", ["uu"]), ("frame", []), ("encircle", []), ("overline", ["o"])]

/-- The attribute that a word names. -/
def attribute? (word : String) : Option String :=
  (attributeNames.find? fun entry => entry.1 == word || entry.2.contains word).map (·.1)

/-- A style. -/
structure Style where
  /-- The attributes that are set or unset, the latest first. -/
  attributes : List (String × Bool) := []
  /-- The colour. -/
  color : Option String := none
  /-- The colour of the background. -/
  background : Option String := none
  /-- The address that the text leads to. -/
  link : Option String := none
deriving DecidableEq, Repr, Inhabited

/-- Why words make no style. -/
inductive StyleFault where
  /-- A word is not known. -/
  | unknown
  /-- A part of a colour is left out. -/
  | broken
deriving DecidableEq, Repr, Inhabited

/-- A text in lower case. -/
def lowerCase (s : String) : String :=
  String.ofList (s.toList.flatMap Text.lower)

/-- The colour of a word. -/
def colorOf (word : String) : Except StyleFault String :=
  match readColor (lowerCase word) with
  | .color => .ok (lowerCase word)
  | .unknown => .error .unknown
  | .broken => .error .broken

namespace Style

/-- Reads the words of a style after those of another. -/
def readFrom (s : Style) : List String → Except StyleFault Style
  | [] => .ok s
  | word :: rest =>
    match lowerCase word, rest with
    | "on", color :: rest => do
      readFrom { s with background := some (← colorOf color) } rest
    | "not", word :: rest =>
      match attribute? word with
      | some name => readFrom { s with attributes := (name, false) :: s.attributes } rest
      | none => .error .unknown
    | "link", address :: rest => readFrom { s with link := some address } rest
    | word, rest =>
      match attribute? word with
      | some name => readFrom { s with attributes := (name, true) :: s.attributes } rest
      | none => do readFrom { s with color := some (← colorOf word) } rest

/-- The words of a style, in the order in which it is spelled. -/
def words (s : Style) : List String :=
  let attributeWords := attributeNames.flatMap fun entry =>
    match s.attributes.lookup entry.1 with
    | some true => [entry.1]
    | some false => ["not", entry.1]
    | none => []
  attributeWords ++ s.color.toList ++ (s.background.elim [] fun c => ["on", c]) ++
    s.link.elim [] fun address => ["link", address]

/-- The words of a text. -/
def split (s : String) : List String :=
  ((s.toList.splitOnP Text.isBlank).filter fun word => !word.isEmpty).map String.ofList

/-- The one spelling of a style, or what the words that make none are compared by. None if a part
of a colour is left out. -/
def normal? (s : String) : Option String :=
  if Text.trim s = "none" || Text.trim s = "" then some "none"
  else
    match readFrom {} (split s) with
    | .ok style => some (" ".intercalate style.words)
    | .error .unknown => some (lowerCase (Text.trim s))
    | .error .broken => none

end Style

end ModuleAssembly.CommandLine.Markup
