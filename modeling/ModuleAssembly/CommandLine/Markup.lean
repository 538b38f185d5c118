import ModuleAssembly.CommandLine.Markup.Literal
import ModuleAssembly.CommandLine.Markup.Style

/-!
# Marks in console text

What the command line prints is read as text with marks: a word in square brackets that starts with
a small letter, a number sign, a slash or an at sign. A mark that starts with a slash closes the
latest open mark of its style, or simply the latest one. A mark that starts with an at sign calls a
handler, and may give it parameters after an equals sign. Text in which a mark has nothing to close,
or closes one whose parameters are no literal, cannot be printed, and `Markup.isPrintable` tells it
apart. A mark after an odd number of backslashes is plain text.
-/

namespace ModuleAssembly.CommandLine.Markup

/-- An open mark. -/
structure Mark where
  /-- Its style in its one spelling. -/
  name : String
  /-- What follows its equals sign, if it has one. -/
  parameters : List Char
deriving DecidableEq, Repr, Inhabited

/-- Whether a mark may start with a character. -/
def startsMark (c : Char) : Bool :=
  ('a' ≤ c && c ≤ 'z') || c == '#' || c == '/' || c == '@'

/-- The words of the mark after an opening bracket, and the text after the mark. -/
def mark? (cs : List Char) : Option (List Char × List Char) :=
  let inner := cs.takeWhile fun c => c != ']' && c != '['
  match inner, cs.drop inner.length with
  | c :: inner, ']' :: rest => if startsMark c then some (c :: inner, rest) else none
  | _, _ => none

/-- What stands before the equals sign of a mark. -/
def nameOf (words : List Char) : String :=
  String.ofList (words.takeWhile (· != '='))

/-- What stands after the equals sign of a mark. -/
def parametersOf (words : List Char) : List Char :=
  (words.dropWhile (· != '=')).tail

/-! ## Handlers -/

/-- A letter of a script other than the Latin one of ASCII. -/
def isForeignLetter (c : Char) : Bool :=
  let n := c.toNat
  0x80 ≤ n && (Text.upper c != [c] || Text.lower c != [c] || (0x5D0 ≤ n && n ≤ 0x64A) ||
    (0x3041 ≤ n && n ≤ 0x9FFF) || (0xAC00 ≤ n && n ≤ 0xD7A3))

/-- A character of the name of a handler. -/
def isHandlerChar (c : Char) : Bool :=
  c.isAlphanum || c == '_' || c == '.' || isForeignLetter c

/-- What is passed to a handler: what stands in parentheses after its name, or nothing after a name
alone. Parameters that name no handler are passed on as they are. -/
def passed (parameters : List Char) : List Char :=
  let name := parameters.takeWhile isHandlerChar
  match parameters.drop name.length with
  | [] => ['(', ')']
  | '(' :: rest =>
    if rest.getLast? == some ')' && !rest.contains '\n' then '(' :: rest else parameters
  | _ => parameters

/-- Whether a mark can be closed: one that calls a handler must pass it a literal. -/
def Mark.isClosable (m : Mark) : Bool :=
  !m.name.startsWith "@" || m.parameters.isEmpty ||
    Literal.isLiteral (passed (Text.dropAroundWhile Text.isBlank m.parameters))

/-! ## Texts -/

/-- Takes the latest mark of a style out of the open ones, the latest first; the latest of all if
the style is empty. -/
def take? (style : String) (opened : List Mark) : Option (Mark × List Mark) :=
  match opened with
  | [] => none
  | m :: rest =>
    if style.isEmpty || m.name = style then some (m, rest)
    else (take? style rest).map fun taken => (taken.1, m :: taken.2)

/-- The open marks after the mark that closes the words `words`. -/
def close? (words : List Char) (opened : List Mark) : Option (List Mark) := do
  let name := Text.trim (nameOf words)
  let style ← if name.isEmpty then some "" else Style.normal? name
  let (m, opened) ← take? style opened
  if m.isClosable then return opened else none

/-- The open marks after a mark with the given words. -/
def step? (words : List Char) (opened : List Mark) : Option (List Mark) :=
  match words with
  | '/' :: words => close? words opened
  | words => (Style.normal? (nameOf words)).map fun name => ⟨name, parametersOf words⟩ :: opened

/-- Goes through a text with the given marks open, the latest first, after a number of backslashes;
`fuel` bounds the number of steps. -/
def go : Nat → List Mark → Nat → List Char → Bool
  | 0, _, _, _ => true
  | _, _, _, [] => true
  | fuel + 1, opened, slashes, '[' :: rest =>
    match mark? rest with
    | none => go fuel opened 0 rest
    | some (words, after) =>
      if slashes % 2 = 1 then go fuel opened 0 after
      else
        match step? words opened with
        | some opened => go fuel opened 0 after
        | none => false
  | fuel + 1, opened, slashes, c :: rest =>
    go fuel opened (if c = '\\' then slashes + 1 else 0) rest

/-- Whether a text with marks can be printed. -/
def isPrintable (s : String) : Bool :=
  go (s.length + 1) [] 0 s.toList

end ModuleAssembly.CommandLine.Markup
