import ModuleAssembly.Text.Integer

/-!
# Literal expressions

The parameters of a mark that calls a handler are written as a literal: numbers, texts, bytes,
words, tuples in parentheses, and sets and mappings in braces. `Literal.isLiteral` recognises the
texts that write one. A number may have a sign, and an imaginary number may be added to a real one;
members of a set and keys of a mapping must themselves be fixed, so they are neither of the two.
-/

namespace ModuleAssembly.CommandLine.Markup.Literal

/-- The form of an expression, as far as it decides where the expression may stand. -/
inductive Form where
  /-- A number. -/
  | number (isImaginary : Bool)
  /-- A number with a sign. -/
  | signed (isImaginary : Bool)
  /-- A sum. -/
  | sum
  /-- A text. -/
  | text
  /-- Bytes. -/
  | bytes
  /-- A word. -/
  | word
  /-- A tuple, and whether it is fixed. -/
  | tuple (isFixed : Bool)
  /-- A set or a mapping. -/
  | collection
deriving DecidableEq, Repr, Inhabited

/-- Whether a set may have a member of a form. -/
def Form.isFixed : Form → Bool
  | tuple isFixed => isFixed
  | collection => false
  | _ => true

/-! ## Space -/

/-- A character that ends a line. -/
def isBreak (c : Char) : Bool :=
  c == '\n' || c == '\r'

/-- The text after space, comments and joined lines; lines end only between brackets. -/
def skipSpace (inside : Bool) (comment : Bool) : List Char → List Char
  | [] => []
  | '\\' :: c :: rest =>
    if comment then skipSpace inside true (c :: rest)
    else if isBreak c then skipSpace inside false rest
    else '\\' :: c :: rest
  | c :: rest =>
    if isBreak c then if inside then skipSpace inside false rest else c :: rest
    else if comment || c == '#' then skipSpace inside true rest
    else if c == ' ' || c == '\t' || c == '\x0c' then skipSpace inside false rest
    else c :: rest

/-- The text after space between brackets. -/
def skipInside (cs : List Char) : List Char :=
  skipSpace true false cs

/-! ## Numbers -/

/-- A character of a name. -/
def isNameChar (c : Char) : Bool :=
  c.isAlphanum || c == '_' || 0x80 ≤ c.toNat

/-- Splits off digits, of which every two may have an underscore between them. -/
def digits (isDigit : Char → Bool) : List Char → List Char × List Char
  | '_' :: c :: rest =>
    if isDigit c then ((c :: (digits isDigit rest).1), (digits isDigit rest).2)
    else ([], '_' :: c :: rest)
  | c :: rest =>
    if isDigit c then ((c :: (digits isDigit rest).1), (digits isDigit rest).2)
    else ([], c :: rest)
  | [] => ([], [])

/-- Splits off decimal digits, the first of which has no underscore in front. -/
def decimalDigits (cs : List Char) : List Char × List Char :=
  if cs.head?.any Char.isDigit then digits Char.isDigit cs else ([], cs)

/-- The text after an exponent, if there is one. -/
def afterExponent? : List Char → Option (List Char)
  | e :: cs =>
    let cs := if cs.head? == some '+' || cs.head? == some '-' then cs.tail else cs
    let (ds, rest) := decimalDigits cs
    if (e == 'e' || e == 'E') && !ds.isEmpty then some rest else none
  | [] => none

/-- The digits of the base that a letter after a zero stands for. -/
def baseDigit? (letter : Char) : Option (Char → Bool) :=
  match letter.toLower with
  | 'x' => some fun c => c.isDigit || ('a' ≤ c.toLower && c.toLower ≤ 'f')
  | 'o' => some fun c => '0' ≤ c && c ≤ '7'
  | 'b' => some fun c => c == '0' || c == '1'
  | _ => none

/-- Reads a decimal number: an integer does not start with a zero, unless it is zero, nor have too
many digits. -/
def decimal? (cs : List Char) : Option (Form × List Char) :=
  let (whole, rest) := decimalDigits cs
  let (fraction, afterPoint) := decimalDigits rest.tail
  let hasPoint := rest.head? == some '.'
  let rest := if hasPoint then afterPoint else rest
  let exponent := afterExponent? rest
  let rest := exponent.getD rest
  let isImaginary := rest.head? == some 'j' || rest.head? == some 'J'
  let isInteger := !hasPoint && exponent.isNone && !isImaginary
  let isPadded := whole.head? == some '0' && whole.any (· != '0')
  if whole.isEmpty && (!hasPoint || fraction.isEmpty) then none
  else if isInteger && (isPadded || Text.longestInteger < whole.length) then none
  else some (.number isImaginary, if isImaginary then rest.tail else rest)

/-- Reads a number, after which no name may follow at once. -/
def number? (cs : List Char) : Option (Form × List Char) := do
  let (form, rest) ←
    match cs with
    | '0' :: letter :: ds =>
      match baseDigit? letter with
      | some isDigit =>
        let (ds, rest) := digits isDigit ds
        if ds.isEmpty then none else some (Form.number false, rest)
      | none => decimal? cs
    | _ => decimal? cs
  if rest.head?.any isNameChar then none else return (form, rest)

/-! ## Texts and bytes -/

/-- The number of hexadecimal digits that must follow a letter after a backslash. -/
def escapeWidth (isText : Bool) (letter : Char) : Nat :=
  match letter with
  | 'x' => 2
  | 'u' => if isText then 4 else 0
  | 'U' => if isText then 8 else 0
  | _ => 0

/-- Whether hexadecimal digits are a code point. -/
def isCodePoint (cs : List Char) : Bool :=
  let value (c : Char) : Nat :=
    if c.isDigit then c.toNat - 48 else c.toLower.toNat - 87
  let isHex (c : Char) : Bool := c.isDigit || ('a' ≤ c.toLower && c.toLower ≤ 'f')
  cs.all isHex && (cs.foldl (fun n c => n * 16 + value c) 0) < 0x110000

/-- The text after the quotes that end a text: `width` of them. `isRaw` says that a backslash only
keeps the next character from ending it. -/
def afterQuoted? (isText isRaw : Bool) (quote : Char) (width : Nat) :
    Nat → List Char → Option (List Char)
  | 0, _ => none
  | fuel + 1, cs =>
    if (List.replicate width quote).isPrefixOf cs then some (cs.drop width)
    else
      match cs with
      | [] => none
      | '\\' :: letter :: rest =>
        let n := if isRaw then 0 else escapeWidth isText letter
        let named := rest.takeWhile (· != '\x7d')
        if !isText && 0x80 ≤ letter.toNat then none
        else if (rest.take n).length < n || !isCodePoint (rest.take n) then none
        else if !isRaw && isText && letter == 'N' then
          if rest.head? == some '\x7b' && 1 < named.length && named.length < rest.length then
            afterQuoted? isText isRaw quote width fuel (rest.drop named.length)
          else none
        else afterQuoted? isText isRaw quote width fuel (rest.drop n)
      | c :: rest =>
        if (isBreak c && width = 1) || (!isText && 0x80 ≤ c.toNat) then none
        else afterQuoted? isText isRaw quote width fuel rest

/-- What the letters in front of a quote say: whether a text follows or bytes, and whether it is
raw. -/
def quoteLetters? (letters : List Char) : Option (Bool × Bool) :=
  match String.ofList (letters.map Char.toLower) with
  | "" => some (true, false)
  | "u" => some (true, false)
  | "r" => some (true, true)
  | "b" => some (false, false)
  | "br" => some (false, true)
  | "rb" => some (false, true)
  | _ => none

/-- Reads a text or bytes. -/
def quoted? (cs : List Char) : Option (Form × List Char) := do
  let letters := cs.takeWhile Char.isAlpha
  let (isText, isRaw) ← quoteLetters? letters
  let body := cs.drop letters.length
  let quote ← body.head?
  if quote != '\'' && quote != '"' then none
  else
    let width := if (List.replicate 3 quote).isPrefixOf body then 3 else 1
    let rest ← afterQuoted? isText isRaw quote width (body.length + 1) (body.drop width)
    return (if isText then .text else .bytes, rest)

/-- Reads what stands after a text or bytes: others of the same form join it. -/
def joined? (inside : Bool) (form : Form) : Nat → List Char → Option (List Char)
  | 0, cs => some cs
  | fuel + 1, cs =>
    match quoted? (skipSpace inside false cs) with
    | some (next, rest) => if next = form then joined? inside form fuel rest else none
    | none => some cs

/-! ## Expressions -/

/-- Reads a word, or the empty set. -/
def word? (inside : Bool) (cs : List Char) : Option (Form × List Char) :=
  let name := cs.takeWhile isNameChar
  let rest := cs.drop name.length
  if ["True", "False", "None"].contains (String.ofList name) then some (.word, rest)
  else if String.ofList name = "set" then
    match skipSpace inside false rest with
    | '(' :: rest =>
      match skipInside rest with
      | ')' :: rest => some (.collection, rest)
      | _ => none
    | _ => none
  else if "...".toList.isPrefixOf cs then some (.word, cs.drop 3)
  else none

/-- Reads an expression without brackets. -/
def simple? (inside : Bool) (cs : List Char) : Option (Form × List Char) :=
  match quoted? cs with
  | some (form, rest) => (joined? inside form (rest.length + 1) rest).map fun rest => (form, rest)
  | none =>
    match number? cs with
    | some result => some result
    | none => word? inside cs

/-- Whether a number may stand before an imaginary one in a sum. -/
def Form.isReal : Form → Bool
  | number isImaginary => !isImaginary
  | signed isImaginary => !isImaginary
  | _ => false

/-- The kinds of brackets. -/
inductive Bracket where
  /-- Parentheses, of a tuple or around an expression. -/
  | round
  /-- Braces, of a set or a mapping. -/
  | curly
deriving DecidableEq, Repr, Inhabited

/-- The character that closes a bracket. -/
def Bracket.close : Bracket → Char
  | round => ')'
  | curly => '\x7d'

/-- The form of what stands in brackets: the forms of its members, whether a comma follows the last
one, and whether the members are keys. -/
def Bracket.form? (b : Bracket) (members : List Form) (comma keyed : Bool) : Option Form :=
  match b, members, comma with
  | .round, [form], false => if keyed then none else some form
  | .round, members, _ => if keyed then none else some (.tuple (members.all Form.isFixed))
  | .curly, members, _ => if members.all Form.isFixed then some .collection else none

mutual

/-- Reads an expression; `level` brackets may still be opened. -/
def expression? (fuel level : Nat) (inside : Bool) (cs : List Char) : Option (Form × List Char) :=
  match fuel with
  | 0 => none
  | fuel + 1 => do
    let (left, rest) ← operand? fuel level inside cs
    match skipSpace inside false rest with
    | '+' :: more | '-' :: more =>
      let (right, rest) ← atom? fuel level inside (skipSpace inside false more)
      if left.isReal && right = .number true then return (.sum, rest) else none
    | _ => return (left, rest)

/-- Reads an atom, or a number after a sign. -/
def operand? (fuel level : Nat) (inside : Bool) (cs : List Char) : Option (Form × List Char) :=
  match fuel, cs with
  | fuel + 1, c :: rest =>
    if c == '+' || c == '-' then do
      match ← atom? fuel level inside (skipSpace inside false rest) with
      | (.number isImaginary, rest) => return (.signed isImaginary, rest)
      | _ => none
    else atom? fuel level inside (c :: rest)
  | _, _ => none

/-- Reads an expression in brackets or without. -/
def atom? (fuel level : Nat) (inside : Bool) (cs : List Char) : Option (Form × List Char) :=
  match fuel, level, cs with
  | fuel + 1, level + 1, '(' :: rest => members? fuel level .round [] none (skipInside rest)
  | fuel + 1, level + 1, '\x7b' :: rest => members? fuel level .curly [] none (skipInside rest)
  | _ + 1, _, cs => simple? inside cs
  | 0, _, _ => none

/-- Reads the members of a bracket up to its end. `read` holds the forms of those so far, the latest
first, and `keyed` says whether they are keys, once that is known. -/
def members? (fuel level : Nat) (bracket : Bracket) (read : List Form) (keyed : Option Bool)
    (cs : List Char) : Option (Form × List Char) :=
  match fuel, cs with
  | 0, _ => none
  | fuel + 1, cs =>
    if cs.head? == some bracket.close then
      (bracket.form? read (!read.isEmpty) (keyed.getD false)).map fun form => (form, cs.tail)
    else do
      let (member, rest) ← expression? fuel level true cs
      let rest := skipInside rest
      let (keyed, rest) ←
        match rest, keyed with
        | ':' :: _, some false => none
        | ':' :: rest, _ => do
          let (_, rest) ← expression? fuel level true (skipInside rest)
          some (true, skipInside rest)
        | _, some true => none
        | rest, _ => some (false, rest)
      match rest with
      | ',' :: rest =>
        members? fuel level bracket (member :: read) (some keyed) (skipInside rest)
      | c :: rest =>
        if c == bracket.close then
          (bracket.form? (member :: read) (!read.isEmpty) keyed).map fun form => (form, rest)
        else none
      | [] => none

/-- Reads expressions with commas between up to the end of the text. -/
def expressions? (fuel : Nat) (cs : List Char) : Option Unit :=
  match fuel with
  | 0 => none
  | fuel + 1 => do
    let (_, rest) ← expression? fuel 200 false cs
    match skipSpace false false rest with
    | ',' :: rest =>
      let rest := skipSpace false false rest
      if (skipInside rest).isEmpty then return () else expressions? fuel rest
    | rest => if (skipInside rest).isEmpty then return () else none

end

/-- Whether a text writes a literal, or several with commas between. -/
def isLiteral (cs : List Char) : Bool :=
  let cs := skipSpace false false cs
  (expressions? (4 * cs.length + 8) cs).isSome

end ModuleAssembly.CommandLine.Markup.Literal
