import ModuleAssembly.Value.Yaml.Property
import ModuleAssembly.Value.Yaml.ScalarText

/-!
# Tokens of a YAML document

`Token.scan` cuts a YAML text into tokens. Indentation becomes tokens of its own: a `blockEnd`
closes every block whose column is left. A scalar or a flow collection may turn out to be a key
only at the colon after it, so the scanner remembers where a possible key began and, at the colon,
splices the `key` token, and before it the start of the mapping, into the tokens already read. A
key must stand on one line, within 1024 characters of its colon.

Of the characters that break lines a text holds no carriage return: the reader has made line feeds
of those. A text with a character that documents may not hold has no tokens.
-/

namespace ModuleAssembly.Yaml

/-- A token of a document. -/
inductive Token where
  /-- The line `---`. -/
  | documentStart
  /-- The line `...`. -/
  | documentEnd
  /-- A sequence starts at a new column. -/
  | blockSequenceStart
  /-- A mapping starts at a new column. -/
  | blockMappingStart
  /-- The column of a block is left. -/
  | blockEnd
  /-- A bracket opens. -/
  | flowSequenceStart
  /-- A bracket closes. -/
  | flowSequenceEnd
  /-- A brace opens. -/
  | flowMappingStart
  /-- A brace closes. -/
  | flowMappingEnd
  /-- A comma between the parts of a flow collection. -/
  | flowEntry
  /-- The dash of a sequence. -/
  | blockEntry
  /-- A key follows. -/
  | key
  /-- The colon between key and value. -/
  | value
  /-- A scalar, and whether it is unquoted. -/
  | scalar (text : String) (plain : Bool)
  /-- A line that says something about the document after it. -/
  | directive (value : Directive)
  /-- The name of the node after it. -/
  | anchor (name : String)
  /-- The name of a node in place of the node. -/
  | reference (name : String)
  /-- The tag of the node after it. -/
  | tag (text : TagText)
deriving DecidableEq, Repr, Inhabited

/-- A scalar or collection that is a key if a colon follows it. -/
structure PossibleKey where
  /-- The number of tokens before it. -/
  place : Nat
  /-- Whether it stands where only a key can stand. -/
  required : Bool
  /-- Characters before it. -/
  offset : Nat
  /-- The line it stands on. -/
  line : Nat
  /-- The column it starts in. -/
  column : Nat
deriving Inhabited

/-- The state of the scanner. -/
structure Scanner where
  /-- Where it reads. -/
  cursor : Cursor
  /-- The tokens so far. -/
  tokens : Array Token
  /-- The column of the innermost block, -1 outside all blocks. -/
  indent : Int
  /-- The columns of the blocks around it. -/
  outer : List Int
  /-- The number of open brackets and braces. -/
  flow : Nat
  /-- Whether a key may start here. -/
  keyAllowed : Bool
  /-- The possible key at each level of brackets. -/
  keys : List (Nat × PossibleKey)
deriving Inhabited

namespace Scanner

/-- The scanner at the start of a text; a byte order mark in front is no part of it. -/
def start (cs : List Char) : Scanner :=
  let cs :=
    match cs with
    | c :: rest => if c.toNat == 0xFEFF then rest else cs
    | [] => cs
  ⟨⟨cs, 0, 0, 0⟩, #[], -1, [], 0, true, []⟩

/-- Adds a token. -/
def push (s : Scanner) (t : Token) : Scanner :=
  { s with tokens := s.tokens.push t }

/-- Moves the cursor past the spaces, comments and line breaks between tokens. -/
def skipBetween : Nat → Scanner → Scanner
  | 0, s => s
  | fuel + 1, s =>
    let c := s.cursor.skipWhile (· == ' ')
    let c := if c.peek? == some '#' then c.skipWhile (!isBreak ·) else c
    match c.lineBreak? with
    | some (_, c) =>
      skipBetween fuel { s with cursor := c, keyAllowed := s.keyAllowed || s.flow == 0 }
    | none => { s with cursor := c }

/-- Forgets the possible keys that ended with their line, or are too long; none if one of them had
to be a key. -/
def dropStaleKeys (s : Scanner) : Option Scanner :=
  let stale (k : PossibleKey) : Bool :=
    k.line != s.cursor.line || 1024 < s.cursor.offset - k.offset
  if s.keys.any fun entry => stale entry.2 && entry.2.required then none
  else some { s with keys := s.keys.filter fun entry => !stale entry.2 }

/-- Forgets the possible key of this level of brackets; none if it had to be a key. -/
def dropKey (s : Scanner) : Option Scanner :=
  match s.keys.lookup s.flow with
  | some k =>
    if k.required then none else some { s with keys := s.keys.filter (·.1 != s.flow) }
  | none => some s

/-- Remembers that a key may start at the cursor. -/
def saveKey (s : Scanner) : Option Scanner :=
  if s.keyAllowed then do
    let s ← s.dropKey
    let required := s.flow == 0 && s.indent == (s.cursor.column : Int)
    let k : PossibleKey :=
      ⟨s.tokens.size, required, s.cursor.offset, s.cursor.line, s.cursor.column⟩
    return { s with keys := (s.flow, k) :: s.keys.filter (·.1 != s.flow) }
  else some s

/-- Closes the blocks to the right of a column. -/
def unwind (s : Scanner) (column : Int) : Scanner :=
  if s.flow != 0 then s
  else
    let columns := s.indent :: s.outer
    let left := columns.dropWhile (column < ·)
    { s with
      tokens := s.tokens ++ Array.replicate (columns.length - left.length) .blockEnd
      indent := left.headD (-1)
      outer := left.tail }

/-- Opens a block at a column to the right of the innermost one, and says whether it did. -/
def addIndent (s : Scanner) (column : Nat) : Bool × Scanner :=
  if s.indent < column then
    (true, { s with indent := column, outer := s.indent :: s.outer })
  else (false, s)

/-- Moves past `n` characters and adds a token. -/
def punctuation (s : Scanner) (n : Nat) (t : Token) : Scanner :=
  { s with cursor := s.cursor.skip n, tokens := s.tokens.push t }

/-- Reads the line that starts or ends a document. -/
def documentMark (s : Scanner) (t : Token) : Option Scanner := do
  let s ← (s.unwind (-1)).dropKey
  return { s.punctuation 3 t with keyAllowed := false }

/-- Reads an opening bracket or brace. -/
def flowStart (s : Scanner) (t : Token) : Option Scanner := do
  let s ← s.saveKey
  return { s.punctuation 1 t with flow := s.flow + 1, keyAllowed := true }

/-- Reads a closing bracket or brace. -/
def flowEnd (s : Scanner) (t : Token) : Option Scanner := do
  let s ← s.dropKey
  return { s.punctuation 1 t with flow := s.flow - 1, keyAllowed := false }

/-- Reads a comma. -/
def flowComma (s : Scanner) : Option Scanner := do
  let s ← { s with keyAllowed := true }.dropKey
  return s.punctuation 1 .flowEntry

/-- Starts a block at the cursor's column, where it may start. -/
def blockAtCursor (s : Scanner) (t : Token) : Option Scanner :=
  if s.flow != 0 then some s
  else if !s.keyAllowed then none
  else
    let (opened, s) := s.addIndent s.cursor.column
    some (if opened then s.push t else s)

/-- Reads the dash of a sequence. -/
def blockDash (s : Scanner) : Option Scanner := do
  let s ← s.blockAtCursor .blockSequenceStart
  let s ← { s with keyAllowed := true }.dropKey
  return s.punctuation 1 .blockEntry

/-- Reads a question mark that starts a key. -/
def explicitKey (s : Scanner) : Option Scanner := do
  let s ← s.blockAtCursor .blockMappingStart
  let s ← { s with keyAllowed := s.flow == 0 }.dropKey
  return s.punctuation 1 .key

/-- Inserts tokens in front of those from a place on. -/
def splice (tokens : Array Token) (place : Nat) (inserted : List Token) : Array Token :=
  tokens.extract 0 place ++ inserted.toArray ++ tokens.extract place tokens.size

/-- Reads a colon: the possible key before it is a key. -/
def colon (s : Scanner) : Option Scanner :=
  match s.keys.lookup s.flow with
  | some k =>
    let s := { s with keys := s.keys.filter (·.1 != s.flow) }
    let (opened, s) := if s.flow == 0 then s.addIndent k.column else (false, s)
    let inserted := if opened then [Token.blockMappingStart, .key] else [.key]
    let s := { s with tokens := splice s.tokens k.place inserted, keyAllowed := false }
    some (s.punctuation 1 .value)
  | none => do
    let s ← s.blockAtCursor .blockMappingStart
    let s ← { s with keyAllowed := s.flow == 0 }.dropKey
    return s.punctuation 1 .value

/-- Goes on after a mark that a key may start with. -/
def named (s : Scanner) (t : Token) (c : Cursor) : Scanner :=
  { s with cursor := c, tokens := s.tokens.push t, keyAllowed := false }

/-- Reads the name of the node that follows. -/
def anchor (s : Scanner) : Option Scanner := do
  let s ← s.saveKey
  let (name, c) ← (s.cursor.skip 1).anchorName?
  return s.named (.anchor name) c

/-- Reads the name of a node that stands for the node. -/
def reference (s : Scanner) : Option Scanner := do
  let s ← s.saveKey
  let (name, c) ← (s.cursor.skip 1).anchorName?
  return s.named (.reference name) c

/-- Reads the tag of the node that follows. -/
def tag (s : Scanner) : Option Scanner := do
  let s ← s.saveKey
  let (text, c) ← s.cursor.tag?
  return s.named (.tag text) c

/-- Reads the line of a directive. -/
def directive (s : Scanner) : Option Scanner := do
  let s ← (s.unwind (-1)).dropKey
  let (directive, c) ← s.cursor.directive?
  return s.named (.directive directive) c

/-- Reads an unquoted scalar. -/
def plain (s : Scanner) : Option Scanner := do
  let s ← s.saveKey
  let (text, broken, c) :=
    ScalarText.plainFrom (s.indent + 1) (s.flow != 0) (s.cursor.rest.length + 1) [] [] false
      s.cursor
  return { s with
    cursor := c
    tokens := s.tokens.push (.scalar (String.ofList text) true)
    keyAllowed := broken }

/-- Reads a scalar in quotes. -/
def quoted (s : Scanner) (double : Bool) : Option Scanner := do
  let s ← s.saveKey
  let c := s.cursor.skip 1
  let (text, c) ← ScalarText.quotedFrom double (c.rest.length + 1) [] c
  return { s with
    cursor := c
    tokens := s.tokens.push (.scalar (String.ofList text) false)
    keyAllowed := false }

/-- Reads a scalar of indented lines, literal or folded. -/
def blockScalar (s : Scanner) (folds : Bool) : Option Scanner := do
  let s ← { s with keyAllowed := true }.dropKey
  let (chomping, width, c) ← ScalarText.blockHeader? (s.cursor.skip 1)
  let least := (max (s.indent + 1) 1).toNat
  let fuel := c.rest.length + 1
  let (indent, breaks, c) :=
    match width with
    | none =>
      let (breaks, widest, c) := ScalarText.leadingLines fuel 0 c
      (max least widest, breaks, c)
    | some n =>
      let indent := least + n - 1
      let (breaks, c) := ScalarText.indentedBreaks indent fuel c
      (indent, breaks, c)
  let (text, last, breaks, c) := ScalarText.blockLines folds indent fuel [] [] breaks c
  let tail :=
    match chomping with
    | .strip => []
    | .clip => last
    | .keep => last ++ breaks
  return { s with
    cursor := c, tokens := s.tokens.push (.scalar (String.ofList (text ++ tail)) false) }

/-- Reads the next token, at a cursor that stands before one. -/
def token (s : Scanner) : Option Scanner :=
  let c := s.cursor
  let inFlow := s.flow != 0
  if c.column == 0 && c.peek? == some '%' then s.directive
  else if c.column == 0 && c.atMark "---" then s.documentMark .documentStart
  else if c.column == 0 && c.atMark "..." then s.documentMark .documentEnd
  else
    match c.rest with
    | [] => none
    | '[' :: _ => s.flowStart .flowSequenceStart
    | '\x7b' :: _ => s.flowStart .flowMappingStart
    | ']' :: _ => s.flowEnd .flowSequenceEnd
    | '\x7d' :: _ => s.flowEnd .flowMappingEnd
    | ',' :: _ => s.flowComma
    | '\'' :: _ => s.quoted false
    | '"' :: _ => s.quoted true
    | '&' :: _ => s.anchor
    | '*' :: _ => s.reference
    | '!' :: _ => s.tag
    | x :: rest =>
      if x == '-' && startsBlank rest then if inFlow then none else s.blockDash
      else if x == '?' && (inFlow || startsBlank rest) then s.explicitKey
      else if x == ':' && (inFlow || startsBlank rest) then s.colon
      else if x == '|' && !inFlow then s.blockScalar false
      else if x == '>' && !inFlow then s.blockScalar true
      else if ScalarText.startsPlain inFlow (x :: rest) then s.plain
      else none

/-- Reads tokens to the end of the text. -/
def run : Nat → Scanner → Option (Array Token)
  | 0, _ => none
  | fuel + 1, s => do
    let s := skipBetween (s.cursor.rest.length + 1) s
    let s ← s.dropStaleKeys
    let s := s.unwind s.cursor.column
    if s.cursor.rest.isEmpty then
      let s ← (s.unwind (-1)).dropKey
      return s.tokens
    else
      let s ← s.token
      run fuel s

end Scanner

/-- Whether a document may hold a character. -/
def isDocumentChar (c : Char) : Bool :=
  let n := c.toNat
  n == 9 || n == 10 || n == 13 || (0x20 ≤ n && n ≤ 0x7E) || n == 0x85 ||
    (0xA0 ≤ n && n ≤ 0xFFFD) || 0x10000 ≤ n

/-- The tokens of a text, if it can be cut into tokens. -/
def Token.scan (cs : List Char) : Option (Array Token) :=
  if cs.all isDocumentChar then Scanner.run (cs.length + 2) (Scanner.start cs) else none

end ModuleAssembly.Yaml
