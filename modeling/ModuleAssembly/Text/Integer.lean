import ModuleAssembly.Text.Blank

/-!
# Integers in text

An integer is written strictly as an optional minus and decimal digits, of which the first is a zero
only for zero itself. `readStrict` reads that form. `readInteger` also takes looser forms, which
`tidy?` brings into the strict one: it leaves out space around the text, a plus, zeros in front,
single underscores between digits, and a fraction of zeros.

`ofInteger?` is the other direction. Neither goes beyond the digits of `longestInteger`.
-/

namespace ModuleAssembly.Text

/-- What the text of an integer turned out to be. -/
inductive IntegerReading where
  /-- It writes an integer. -/
  | integer (value : Int)
  /-- It starts with more digits than are read. -/
  | tooLong
  /-- It writes no integer. -/
  | malformed
deriving DecidableEq, Repr, Inhabited

/-- The most digits of an integer that are read, or written. -/
def longestInteger : Nat := 4300

/-- The number that decimal digits write. -/
def digitsValue (cs : List Char) : Nat :=
  cs.foldl (fun n c => n * 10 + (c.toNat - 48)) 0

/-- Reads an integer in the strict form. -/
def readStrict (cs : List Char) : IntegerReading :=
  let negative := cs.head? == some '-'
  let body := if negative then cs.tail else cs
  let digits := body.takeWhile Char.isDigit
  if body = ['0'] then .integer 0
  else if digits.isEmpty || digits.head? == some '0' then .malformed
  else if longestInteger < digits.length then .tooLong
  else if digits.length < body.length then .malformed
  else
    let n : Int := digitsValue digits
    .integer (if negative then -n else n)

/-- Leaves out the zeros in front of a number, with the underscores among them. The last of them
stays where a point follows, or nothing. -/
def withoutLeadingZeros? : List Char → Option (List Char)
  | [] => none
  | c :: rest =>
    let isFiller (c : Char) : Bool := c == '0' || c == '_'
    let fillers := if c == '0' then c :: rest.takeWhile isFiller else []
    match (c :: rest).drop fillers.length with
    | [] => some (fillers.drop (fillers.length - 1))
    | d :: tail =>
      if d == '-' || d.isDigit then some (d :: tail)
      else if d == '.' && !fillers.isEmpty then
        some (fillers.drop (fillers.length - 1) ++ d :: tail)
      else none

/-- Leaves out a fraction that has zeros and nothing else. -/
def withoutZeroFraction (cs : List Char) : List Char :=
  let fraction := (cs.dropWhile (· != '.')).tail
  if !fraction.isEmpty && fraction.all (· == '0') then cs.takeWhile (· != '.') else cs

/-- Leaves out the underscores, if each of them stands alone between other characters. -/
def withoutUnderscores (cs : List Char) : List Char :=
  let doubled := (cs.zip cs.tail).any fun pair => pair.1 == '_' && pair.2 == '_'
  if doubled || cs.head? == some '_' || cs.getLast? == some '_' then cs
  else cs.filter (· != '_')

/-- Brings a loosely written integer closer to the strict form; none if it has no such form. -/
def tidy? (cs : List Char) : Option (List Char) := do
  let trimmed := dropAroundWhile isWhiteSpace cs
  let unsigned ←
    match trimmed with
    | '+' :: '-' :: _ => none
    | '+' :: rest => some rest
    | _ => some trimmed
  let digits ← withoutLeadingZeros? unsigned
  return withoutUnderscores (withoutZeroFraction digits)

/-- Reads an integer in the strict form or in a loose one. Only a strict one can be too long. -/
def readInteger (s : String) : IntegerReading :=
  match readStrict s.toList with
  | .malformed =>
    match (tidy? s.toList).map readStrict with
    | some (.integer n) => .integer n
    | _ => .malformed
  | reading => reading

/-- The text of an integer, unless it has too many digits. -/
def ofInteger? (n : Int) : Option String :=
  if (Nat.toDigits 10 n.natAbs).length ≤ longestInteger then some (toString n) else none

end ModuleAssembly.Text
