import ModuleAssembly.Text.Printable

/-!
# Text in messages

`displayed` writes a text the way messages show it: inside single quotes, or inside double quotes
when the text holds a single quote and no double quote. The quote in use and the backslash follow a
backslash; line feed, carriage return and tab are written by their letters; any other character
that is not printable is written by its code point in two, four or eight hexadecimal digits.

`displayedBytes` writes bytes in the same way after a letter: those of ASCII as characters, the
others by two digits.
-/

namespace ModuleAssembly.Text

/-- The hexadecimal digit of a number below sixteen, in lower case. -/
def hexDigit (n : Nat) : Char :=
  if n < 10 then Char.ofNat (48 + n) else Char.ofNat (87 + n)

/-- The last `width` hexadecimal digits of a number. -/
def hexDigits : Nat → Nat → List Char
  | 0, _ => []
  | width + 1, n => hexDigits width (n / 16) ++ [hexDigit (n % 16)]

/-- The written form of one character between the quotes `quote`. -/
def displayedChar (quote c : Char) : List Char :=
  if c == quote || c == '\\' then ['\\', c]
  else if c == '\n' then ['\\', 'n']
  else if c == '\r' then ['\\', 'r']
  else if c == '\t' then ['\\', 't']
  else if isPrintable c then [c]
  else if c.toNat < 0x100 then '\\' :: 'x' :: hexDigits 2 c.toNat
  else if c.toNat < 0x10000 then '\\' :: 'u' :: hexDigits 4 c.toNat
  else '\\' :: 'U' :: hexDigits 8 c.toNat

/-- The quote that a text is shown in. -/
def displayedQuote (s : List Char) : Char :=
  if s.contains '\'' && !s.contains '"' then '"' else '\''

/-- The text as messages show it. -/
def displayed (s : String) : String :=
  let quote := displayedQuote s.toList
  String.ofList (quote :: s.toList.flatMap (displayedChar quote) ++ [quote])

/-- The written form of one byte between the quotes `quote`. -/
def displayedByte (quote : Char) (b : UInt8) : List Char :=
  if b.toNat < 0x7F then displayedChar quote (Char.ofNat b.toNat)
  else '\\' :: 'x' :: hexDigits 2 b.toNat

/-- Bytes as messages show them. -/
def displayedBytes (bs : List UInt8) : String :=
  let quote := displayedQuote (bs.map fun b => Char.ofNat b.toNat)
  String.ofList ('b' :: quote :: bs.flatMap (displayedByte quote) ++ [quote])

end ModuleAssembly.Text
