import ModuleAssembly.Text.Integer
import ModuleAssembly.Value.Basic

/-!
# JSON documents

`Json.read` reads a JSON text strictly: no comments, no trailing commas, no control characters in
strings, no half of a surrogate pair, and nothing after the value. An object that repeats a key
keeps its last value. What becomes of numbers beyond the machine's is the choice of a
`Json.Limits`: `Json.document` is that of the model files.
-/

namespace ModuleAssembly.Json

/-- What a reader does at the edge of the numbers, and how deep it reads. -/
structure Limits where
  /-- Whether an integer outside sixty-four bits stays an integer; otherwise it becomes a float. -/
  wideIntegers : Bool
  /-- Whether a number too large for a float becomes infinite; otherwise it is refused. -/
  infinite : Bool
  /-- The deepest nesting that is read. -/
  depth : Nat

/-- Model files: integers of sixty-four bits, finite floats, a thousand levels. -/
def document : Limits :=
  ⟨false, false, 1024⟩

/-- Whether a character may stand between the parts of a document. -/
def isSpace (c : Char) : Bool :=
  c == ' ' || c == '\t' || c == '\n' || c == '\r'

/-- The text without the space in front of it. -/
def skipSpace (cs : List Char) : List Char :=
  cs.dropWhile isSpace

/-- The value of a hexadecimal digit. -/
def hexValue? (c : Char) : Option Nat :=
  let n := c.toNat
  if 48 ≤ n ∧ n ≤ 57 then some (n - 48)
  else if 97 ≤ n ∧ n ≤ 102 then some (n - 87)
  else if 65 ≤ n ∧ n ≤ 70 then some (n - 55)
  else none

/-- Reads four hexadecimal digits. -/
def readUnit? : List Char → Option (Nat × List Char)
  | a :: b :: c :: d :: rest => do
    let a ← hexValue? a
    let b ← hexValue? b
    let c ← hexValue? c
    let d ← hexValue? d
    return (((a * 16 + b) * 16 + c) * 16 + d, rest)
  | _ => none

/-- The character that a letter after a backslash stands for. -/
def escaped? (c : Char) : Option Char :=
  match c with
  | '"' => some '"'
  | '\\' => some '\\'
  | '/' => some '/'
  | 'b' => some '\x08'
  | 'f' => some '\x0c'
  | 'n' => some '\n'
  | 'r' => some '\r'
  | 't' => some '\t'
  | _ => none

/-- Reads the character written by code units after `\u`: one unit, or the two of a pair. -/
def readEscapedUnits? (cs : List Char) : Option (Char × List Char) := do
  let (unit, rest) ← readUnit? cs
  if 0xD800 ≤ unit ∧ unit < 0xDC00 then
    match rest with
    | '\\' :: 'u' :: rest =>
      let (low, rest) ← readUnit? rest
      if 0xDC00 ≤ low ∧ low < 0xE000 then
        return (Char.ofNat (0x10000 + (unit - 0xD800) * 0x400 + (low - 0xDC00)), rest)
      else none
    | _ => none
  else if 0xDC00 ≤ unit ∧ unit < 0xE000 then none
  else return (Char.ofNat unit, rest)

/-- Reads a string after its opening quote; `read` holds the characters so far, the latest first. -/
def readString? : Nat → List Char → List Char → Option (String × List Char)
  | 0, _, _ => none
  | fuel + 1, read, cs =>
    match cs with
    | '"' :: rest => some (String.ofList read.reverse, rest)
    | '\\' :: 'u' :: rest => do
      let (c, rest) ← readEscapedUnits? rest
      readString? fuel (c :: read) rest
    | '\\' :: c :: rest => do
      let c ← escaped? c
      readString? fuel (c :: read) rest
    | c :: rest => if c.toNat < 0x20 then none else readString? fuel (c :: read) rest
    | [] => none

/-- Reads the digits of a fraction, if the text goes on with a point. -/
def readFraction? : List Char → Option (Option (List Char) × List Char)
  | '.' :: rest =>
    let digits := rest.takeWhile Char.isDigit
    if digits.isEmpty then none else some (some digits, rest.dropWhile Char.isDigit)
  | cs => some (none, cs)

/-- Reads the digits and the sign of an exponent after its letter. -/
def readExponentDigits? (cs : List Char) : Option (Int × List Char) :=
  let (negative, cs) :=
    match cs with
    | '-' :: rest => (true, rest)
    | '+' :: rest => (false, rest)
    | _ => (false, cs)
  let digits := cs.takeWhile Char.isDigit
  if digits.isEmpty then none
  else
    let n : Int := Text.digitsValue digits
    some (if negative then -n else n, cs.dropWhile Char.isDigit)

/-- Reads an exponent, if the text goes on with its letter. -/
def readExponent? : List Char → Option (Option Int × List Char)
  | 'e' :: rest | 'E' :: rest => do
    let (exponent, rest) ← readExponentDigits? rest
    return (some exponent, rest)
  | cs => some (none, cs)

/-- Reads the digits before the point: a zero alone, or digits that do not start with one. -/
def readWhole? : List Char → Option (List Char × List Char)
  | '0' :: rest => some (['0'], rest)
  | cs =>
    let digits := cs.takeWhile Char.isDigit
    if digits.isEmpty then none else some (digits, cs.dropWhile Char.isDigit)

/-- The scalar of a number without fraction and exponent. -/
def Limits.integer (limits : Limits) (negative : Bool) (n : Nat) : Scalar :=
  let value : Int := if negative then -n else n
  if limits.wideIntegers ∨ (-0x8000000000000000 ≤ value ∧ value < 0x10000000000000000) then
    .int value
  else .float (.ofDecimal negative n 0)

/-- Reads a number. -/
def readNumber? (limits : Limits) (cs : List Char) : Option (Scalar × List Char) := do
  let (negative, cs) :=
    match cs with
    | '-' :: rest => (true, rest)
    | _ => (false, cs)
  let (whole, cs) ← readWhole? cs
  let (fraction, cs) ← readFraction? cs
  let (exponent, cs) ← readExponent? cs
  let number : Scalar :=
    if fraction.isNone && exponent.isNone then limits.integer negative (Text.digitsValue whole)
    else
      let digits := fraction.getD []
      let mantissa := Text.digitsValue (whole ++ digits)
      .float (.ofDecimal negative mantissa (exponent.getD 0 - digits.length))
  match number with
  | .float x => if limits.infinite || x.isFinite then return (number, cs) else none
  | _ => return (number, cs)

/-- The text after a word that it starts with. -/
def dropWord? (word : String) (cs : List Char) : Option (List Char) :=
  if word.toList.isPrefixOf cs then some (cs.drop word.length) else none

mutual

/-- Reads a value from text without leading space; lists and objects may stand in it fewer than
`fuel` levels deep. -/
def readValue? (limits : Limits) (fuel : Nat) (cs : List Char) : Option (Value × List Char) :=
  match fuel with
  | 0 => none
  | fuel + 1 =>
    match cs with
    | '"' :: rest => do
      let (s, rest) ← readString? (rest.length + 1) [] rest
      return (.text s, rest)
    | '[' :: rest =>
      match skipSpace rest with
      | ']' :: rest => if fuel = 0 then none else some (.list [], rest)
      | rest => do
        let (items, rest) ← readItems? limits fuel (rest.length + 1) rest
        return (.list items, rest)
    | '\x7b' :: rest =>
      match skipSpace rest with
      | '\x7d' :: rest => if fuel = 0 then none else some (.mapping [], rest)
      | rest => do
        let (entries, rest) ← readEntries? limits fuel (rest.length + 1) [] rest
        return (.mapping entries, rest)
    | 't' :: _ => (dropWord? "true" cs).map (.bool true, ·)
    | 'f' :: _ => (dropWord? "false" cs).map (.bool false, ·)
    | 'n' :: _ => (dropWord? "null" cs).map (.null, ·)
    | _ => (readNumber? limits cs).map fun (number, rest) => (.scalar number, rest)
termination_by (fuel, 0)

/-- Reads the values of a list up to its closing bracket. -/
def readItems? (limits : Limits) (depth fuel : Nat) (cs : List Char) :
    Option (List Value × List Char) :=
  match fuel with
  | 0 => none
  | fuel + 1 => do
    let (value, rest) ← readValue? limits depth cs
    match skipSpace rest with
    | ']' :: rest => some ([value], rest)
    | ',' :: rest =>
      let (items, rest) ← readItems? limits depth fuel (skipSpace rest)
      return (value :: items, rest)
    | _ => none
termination_by (depth, fuel + 1)

/-- Reads the entries of an object up to its closing brace; `read` holds the entries so far. -/
def readEntries? (limits : Limits) (depth fuel : Nat) (read : Entries) (cs : List Char) :
    Option (Entries × List Char) :=
  match fuel, cs with
  | fuel + 1, '"' :: rest => do
    let (key, rest) ← readString? (rest.length + 1) [] rest
    match skipSpace rest with
    | ':' :: rest =>
      let (value, rest) ← readValue? limits depth (skipSpace rest)
      let read := Association.insert read (.text key) value
      match skipSpace rest with
      | '\x7d' :: rest => some (read, rest)
      | ',' :: rest => readEntries? limits depth fuel read (skipSpace rest)
      | _ => none
    | _ => none
  | _, _ => none
termination_by (depth, fuel + 1)

end

/-- Reads a JSON text: one value with nothing but space around it. -/
def read? (limits : Limits) (s : String) : Option Value := do
  let (value, rest) ← readValue? limits (limits.depth + 1) (skipSpace s.toList)
  if (skipSpace rest).isEmpty then return value else none

end ModuleAssembly.Json
