import ModuleAssembly.Binary64.Arithmetic
import ModuleAssembly.Value.Json
import ModuleAssembly.Value.Yaml.Moment

/-!
# Plain scalars

What an unquoted scalar of a YAML 1.1 document stands for. Words for truth and for nothing are
recognised in lower case, capitalised and in upper case; integers are decimal, binary, octal with a
leading zero, hexadecimal or in base sixty with colons, and may hold underscores; a float has a
point; a date may have a time. Two signs are for keys: `<<` merges another mapping into one, and `=`
stands for a default. Every other scalar is a text. `Plain.kindOf` decides, and `Plain.read` reads
the text of a scalar of a kind.
-/

namespace ModuleAssembly.Yaml.Plain

/-- What a scalar stands for. -/
inductive Kind where
  /-- Nothing. -/
  | null
  /-- A truth value. -/
  | bool
  /-- An integer. -/
  | int
  /-- A floating point number. -/
  | float
  /-- A date, perhaps with a time. -/
  | moment
  /-- The key whose value is merged into the mapping. -/
  | mergeKey
  /-- The key of a default value. -/
  | defaultKey
  /-- A text. -/
  | text
deriving DecidableEq, Repr, Inhabited

/-- Why a scalar of some kind has no value. -/
inductive Fault where
  /-- The text does not have the form of that kind, or the kind has no value. -/
  | malformed
  /-- An integer without a digit. -/
  | noDigits (base : Nat)
  /-- A decimal integer with more digits than are read. -/
  | tooManyDigits (count : Nat)
  /-- Numbers that make no moment. -/
  | noMoment (fault : Moment.Fault)
deriving DecidableEq, Repr, Inhabited

/-- The wording of a fault. -/
def Fault.message : Fault → String
  | malformed => "Malformed scalar"
  | noDigits base => "invalid literal for int() with base " ++ toString base ++ ": ''"
  | tooManyDigits count =>
    "Exceeds the limit (" ++ toString Text.longestInteger ++
      " digits) for integer string conversion: value has " ++ toString count ++
      " digits; use sys.set_int_max_str_digits() to increase the limit"
  | noMoment fault => fault.message

/-! ## Words -/

/-- The word in lower case, capitalised and in upper case. -/
def spellings (word : String) : List String :=
  [word, word.capitalize, word.toUpper]

/-- The words for true. -/
def trueWords : List String :=
  ["yes", "true", "on"]

/-- The words for false. -/
def falseWords : List String :=
  ["no", "false", "off"]

/-- The words for nothing. -/
def nullWords : List String :=
  ["", "~"] ++ spellings "null"

/-! ## Integers -/

/-- Splits off a leading sign: whether it is a minus, and the rest. -/
def splitSign : List Char → Bool × List Char
  | '-' :: rest => (true, rest)
  | '+' :: rest => (false, rest)
  | cs => (false, cs)

/-- A decimal digit or an underscore. -/
def isDigitMark (c : Char) : Bool :=
  c.isDigit || c == '_'

/-- The number that digits write in a base, underscores aside. -/
def inBase (base : Nat) (cs : List Char) : Nat :=
  cs.foldl (fun n c => ((Json.hexValue? c).map (n * base + ·)).getD n) 0

/-- The number that digits write in a base other than ten; there must be one among the
underscores. -/
def digitsInBase (base : Nat) (cs : List Char) : Except Fault Nat :=
  if cs.all (· == '_') then .error (.noDigits base) else .ok (inBase base cs)

/-- The parts of a text between its colons. -/
def colonParts (cs : List Char) : List (List Char) :=
  cs.splitOn ':'

/-- Whether the digits write a number below sixty: one digit, or two of which the first is at most
five. -/
def isSixtieth : List Char → Bool
  | [a] => a.isDigit
  | [a, b] => a.isDigit && a.toNat ≤ '5'.toNat && b.isDigit
  | _ => false

/-- The number that decimal parts write in base sixty. -/
def inSixties (parts : List (List Char)) : Except Fault Nat :=
  let longest := (parts.map fun part => (part.filter Char.isDigit).length).foldl max 0
  if Text.longestInteger < longest then .error (.tooManyDigits longest)
  else .ok (parts.foldl (fun n part => n * 60 + inBase 10 part) 0)

/-- The magnitude of an integer, after its sign. -/
def magnitude? : List Char → Option (Except Fault Nat)
  | '0' :: 'b' :: ds =>
    if !ds.isEmpty && ds.all (fun c => c == '0' || c == '1' || c == '_') then
      some (digitsInBase 2 ds)
    else none
  | '0' :: 'x' :: ds =>
    if !ds.isEmpty && ds.all (fun c => (Json.hexValue? c).isSome || c == '_') then
      some (digitsInBase 16 ds)
    else none
  | '0' :: ds =>
    if ds.all (fun c => ('0' ≤ c && c ≤ '7') || c == '_') then some (.ok (inBase 8 ds)) else none
  | c :: ds =>
    match colonParts (c :: ds) with
    | whole :: parts =>
      if c.isDigit && whole.all isDigitMark && parts.all isSixtieth then
        some (inSixties (whole :: parts))
      else none
    | [] => none
  | [] => none

/-- The integer that a scalar writes. -/
def int? (cs : List Char) : Option (Except Fault Int) :=
  let (negative, body) := splitSign cs
  (magnitude? body).map fun magnitude => magnitude.map fun n => if negative then -n else n

/-! ## Floats -/

/-- The exponent after the digits of a fraction: nothing, or a letter, a sign and digits. -/
def exponent? : List Char → Option Int
  | [] => some 0
  | e :: sign :: ds =>
    if (e == 'e' || e == 'E') && (sign == '-' || sign == '+') && !ds.isEmpty && ds.all Char.isDigit
    then some (if sign == '-' then -(inBase 10 ds : Int) else inBase 10 ds)
    else none
  | _ => none

/-- The sum of parts in base sixty, the last part first; every product and every sum is rounded. -/
def sumOfSixties (place : Nat) (sum : Binary64) : List Binary64 → Binary64
  | [] => sum
  | part :: parts => sumOfSixties (place * 60) (sum.add (part.mul (.ofNat place))) parts

/-- The float of a sign, the parts of its whole number, and the text after its point. A number in
base sixty has no exponent. -/
def fractional? (negative : Bool) (parts : List (List Char)) (cs : List Char) :
    Option Binary64 := do
  let fraction := (cs.takeWhile isDigitMark).filter Char.isDigit
  let tail := cs.dropWhile isDigitMark
  let exponent ← exponent? tail
  if !tail.isEmpty && 1 < parts.length then none
  else
    let whole (part : List Char) : Binary64 := .ofDecimal false (inBase 10 part) 0
    let last (part : List Char) : Binary64 :=
      .ofDecimal false (inBase 10 (part ++ fraction)) (exponent - fraction.length)
    let numbers :=
      match parts.reverse with
      | [] => []
      | part :: parts => last part :: parts.map whole
    let x := sumOfSixties 1 (.ofNat 0) numbers
    return if negative then x.neg else x

/-- The float that a scalar writes. A number that starts with its point has no sign. -/
def float? (cs : List Char) : Option Binary64 :=
  let (negative, body) := splitSign cs
  if (spellings "inf").any (fun word => body == '.' :: word.toList) then
    some (.ofMagnitude negative Binary64.infinite)
  else if [".nan", ".NaN", ".NAN"].any (fun word => cs == word.toList) then some .nan
  else
    let whole := body.takeWhile (· != '.')
    match whole, body.dropWhile (· != '.') with
    | [], '.' :: d :: rest =>
      if d.isDigit && cs == body then fractional? false [[]] (d :: rest) else none
    | c :: _, '.' :: rest =>
      match colonParts whole with
      | first :: parts =>
        if c.isDigit && first.all isDigitMark && parts.all isSixtieth then
          fractional? negative (first :: parts) rest
        else none
      | [] => none
    | _, _ => none

/-! ## Scalars -/

/-- What an unquoted scalar stands for. -/
def kindOf (s : String) : Kind :=
  if nullWords.contains s then .null
  else if ((trueWords ++ falseWords).flatMap spellings).contains s then .bool
  else if s = "<<" then .mergeKey
  else if s = "=" then .defaultKey
  else if (int? s.toList).isSome then .int
  else if (float? s.toList).isSome then .float
  else if Moment.isWritten s then .moment
  else .text

/-- Reads the text of a moment. -/
def readMoment (s : String) : Except Fault Scalar :=
  match Moment.ofText? s with
  | some m => m.fault?.elim (.ok (.moment s)) fun fault => .error (.noMoment fault)
  | none => .error .malformed

/-- Reads the text of a scalar of a kind. The signs for keys have no value. -/
def read (kind : Kind) (s : String) : Except Fault Scalar :=
  match kind with
  | .null => .ok .null
  | .bool =>
    if trueWords.contains s.toLower then .ok (.bool true)
    else if falseWords.contains s.toLower then .ok (.bool false)
    else .error .malformed
  | .int => ((int? s.toList).getD (.error .malformed)).map .int
  | .float => ((float? s.toList).map .float).elim (.error .malformed) .ok
  | .moment => readMoment s
  | .mergeKey => .error .malformed
  | .defaultKey => .error .malformed
  | .text => .ok (.text s)

end ModuleAssembly.Yaml.Plain
