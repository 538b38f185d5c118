import ModuleAssembly.Value.Json
import ModuleAssembly.Value.Yaml.Cursor

/-!
# The text of YAML scalars

A scalar stands unquoted, in single or double quotes, or as a block of indented lines. The functions
of this module read the text of each kind from a cursor on, and give the cursor after it. Lines
that are folded are joined by a space, or by the breaks after the first.
-/

namespace ModuleAssembly.Yaml.ScalarText

/-! ## Unquoted scalars -/

/-- Whether an unquoted scalar starts at a text. -/
def startsPlain (inFlow : Bool) : List Char → Bool
  | [] => false
  | c :: rest =>
    (!startsBlank (c :: rest) && !"-?:,[]\x7b\x7d#&*!|>'\"%@\x60".toList.contains c) ||
      (!startsBlank rest && (c == '-' || (!inFlow && (c == '?' || c == ':'))))

/-- Reads blank lines and the space in front of each; gives their breaks. -/
def blankLines (isSpace : Char → Bool) : Nat → Cursor → List Char × Cursor
  | 0, c => ([], c)
  | fuel + 1, c =>
    let c := c.skipWhile isSpace
    match c.lineBreak? with
    | some (b, c) =>
      if c.atDocumentMark then ([b], c)
      else
        let (breaks, c) := blankLines isSpace fuel c
        (b :: breaks, c)
    | none => ([], c)

/-- What a fold between two lines reads as: a space, or the breaks after the first. -/
def folded (first : Char) (breaks : List Char) : List Char :=
  if first != '\n' then first :: breaks
  else if breaks.isEmpty then [' ']
  else breaks

/-- The length of the part of an unquoted scalar that has no space in it. -/
def plainLength (inFlow : Bool) : List Char → Nat
  | [] => 0
  | c :: rest =>
    let colonEnds :=
      c == ':' && (startsBlank rest || (inFlow && rest.head?.any (",[]\x7b\x7d".toList.contains ·)))
    if startsBlank (c :: rest) || colonEnds || (inFlow && ",?[]\x7b\x7d".toList.contains c) then 0
    else plainLength inFlow rest + 1

/-- Reads an unquoted scalar from the cursor on; `read` is its text so far and `spaces` the space
before its next part. The flag says whether the scalar ended on a later line than it began. -/
def plainFrom (indent : Int) (inFlow : Bool) :
    Nat → List Char → List Char → Bool → Cursor → List Char × Bool × Cursor
  | 0, read, _, broken, c => (read, broken, c)
  | fuel + 1, read, spaces, broken, c =>
    let n := plainLength inFlow c.rest
    if c.peek? == some '#' || n == 0 then (read, broken, c)
    else
      let read := read ++ spaces ++ c.rest.take n
      let (white, after) := (c.skip n).span (· == ' ')
      match after.lineBreak? with
      | some (first, after) =>
        if after.atDocumentMark then (read, true, after)
        else
          let (breaks, after) := blankLines (· == ' ') (after.rest.length + 1) after
          if after.atDocumentMark && after.column == 0 then (read, true, after)
          else if after.peek? == some '#' || (!inFlow && (after.column : Int) < indent) then
            (read, true, after)
          else plainFrom indent inFlow fuel read (folded first breaks) true after
      | none =>
        if white.isEmpty then (read, false, after)
        else plainFrom indent inFlow fuel read white false after

/-! ## Scalars in quotes -/

/-- The character that a letter after a backslash stands for in double quotes. -/
def escaped? (c : Char) : Option Char :=
  match c with
  | '0' => some '\x00'
  | 'a' => some '\x07'
  | 'b' => some '\x08'
  | 't' | '\t' => some '\t'
  | 'n' => some '\n'
  | 'v' => some '\x0b'
  | 'f' => some '\x0c'
  | 'r' => some '\r'
  | 'e' => some '\x1b'
  | ' ' => some ' '
  | '"' => some '"'
  | '\\' => some '\\'
  | '/' => some '/'
  | 'N' => some '\u0085'
  | '_' => some '\u00a0'
  | 'L' => some '\u2028'
  | 'P' => some '\u2029'
  | _ => none

/-- The number of hexadecimal digits after a letter that starts a code point. -/
def codeWidth? (c : Char) : Option Nat :=
  match c with
  | 'x' => some 2
  | 'u' => some 4
  | 'U' => some 8
  | _ => none

/-- The character written by so many hexadecimal digits. -/
def codePoint? (width : Nat) (cs : List Char) : Option Char := do
  let digits := cs.take width
  let values ← digits.mapM Json.hexValue?
  let n := values.foldl (fun n d => n * 16 + d) 0
  if digits.length == width ∧ n.isValidChar then return Char.ofNat n else none

/-- Reads a quoted scalar after its opening quote; `read` is its text so far, the latest first. -/
def quotedFrom (double : Bool) : Nat → List Char → Cursor → Option (List Char × Cursor)
  | 0, _, _ => none
  | fuel + 1, read, c =>
    match c.rest with
    | [] => none
    | '\'' :: rest =>
      if double then quotedFrom double fuel ('\'' :: read) (c.skip 1)
      else if rest.head? == some '\'' then quotedFrom double fuel ('\'' :: read) (c.skip 2)
      else some (read.reverse, c.skip 1)
    | '"' :: _ =>
      if double then some (read.reverse, c.skip 1)
      else quotedFrom double fuel ('"' :: read) (c.skip 1)
    | '\\' :: e :: rest =>
      if !double then quotedFrom double fuel ('\\' :: read) (c.skip 1)
      else
        match escaped? e, codeWidth? e, (c.skip 1).lineBreak? with
        | some x, _, _ => quotedFrom double fuel (x :: read) (c.skip 2)
        | none, some width, _ => do
          let x ← codePoint? width rest
          quotedFrom double fuel (x :: read) (c.skip (2 + width))
        | none, none, some (_, c) =>
          if c.atDocumentMark then none
          else
            let isSpace (x : Char) : Bool := x == ' ' || x == '\t'
            let (breaks, c) := blankLines isSpace (c.rest.length + 1) c
            quotedFrom double fuel (breaks.reverse ++ read) c
        | none, none, none => none
    | x :: _ =>
      let isSpace (x : Char) : Bool := x == ' ' || x == '\t'
      if isSpace x || isBreak x then
        let (white, after) := c.span isSpace
        match after.lineBreak? with
        | some (first, after) =>
          if after.atDocumentMark then none
          else
            let (breaks, after) := blankLines isSpace (after.rest.length + 1) after
            if after.atDocumentMark && after.column == 0 then none
            else quotedFrom double fuel ((folded first breaks).reverse ++ read) after
        | none => quotedFrom double fuel (white.reverse ++ read) after
      else quotedFrom double fuel (x :: read) (c.skip 1)

/-! ## Block scalars -/

/-- What becomes of the line breaks at the end of a block scalar. -/
inductive Chomping where
  /-- None is kept. -/
  | strip
  /-- One is kept. -/
  | clip
  /-- All are kept. -/
  | keep
deriving DecidableEq

/-- Reads the marks after a block scalar's sign: what to do at its end, and its indentation. -/
def blockHeader? (c : Cursor) : Option (Chomping × Option Nat × Cursor) :=
  let chomping? (c : Cursor) : Option (Chomping × Cursor) :=
    match c.peek? with
    | some '+' => some (.keep, c.skip 1)
    | some '-' => some (.strip, c.skip 1)
    | _ => none
  let width? (c : Cursor) : Option (Nat × Cursor) :=
    match c.peek? with
    | some d => if d.isDigit then some (d.toNat - 48, c.skip 1) else none
    | none => none
  let (chomping, width, c) :=
    match chomping? c with
    | some (chomping, c) =>
      match width? c with
      | some (n, c) => (chomping, some n, c)
      | none => (chomping, none, c)
    | none =>
      match width? c with
      | some (n, c) =>
        match chomping? c with
        | some (chomping, c) => (chomping, some n, c)
        | none => (.clip, some n, c)
      | none => (.clip, none, c)
  let blank := c.peek?.all fun x => x == ' ' || isBreak x
  let c := c.skipWhile (· == ' ')
  let c := if c.peek? == some '#' then c.skipWhile (!isBreak ·) else c
  if width == some 0 || !blank then none
  else
    match c.lineBreak? with
    | some (_, c) => some (chomping, width, c)
    | none => if c.rest.isEmpty then some (chomping, width, c) else none

/-- Reads the blank lines before a block scalar's text; gives their breaks and the widest
indentation seen. -/
def leadingLines : Nat → Nat → Cursor → List Char × Nat × Cursor
  | 0, widest, c => ([], widest, c)
  | fuel + 1, widest, c =>
    let c := c.skipWhile (· == ' ')
    let widest := max widest c.column
    match c.lineBreak? with
    | some (b, c) =>
      let (breaks, widest, c) := leadingLines fuel widest c
      (b :: breaks, widest, c)
    | none => ([], widest, c)

/-- Reads blank lines, skipping at most `indent` spaces on each; gives their breaks. -/
def indentedBreaks (indent : Nat) : Nat → Cursor → List Char × Cursor
  | 0, c => ([], c)
  | fuel + 1, c =>
    let spaces := (c.rest.takeWhile (· == ' ')).length
    let c := c.skip (min spaces (indent - c.column))
    match c.lineBreak? with
    | some (b, c) =>
      let (breaks, c) := indentedBreaks indent fuel c
      (b :: breaks, c)
    | none => ([], c)

/-- Reads the lines of a block scalar at a column; `breaks` are the blank lines before the next
one. Gives the text, the last line's break, the blank lines after it, and the cursor. -/
def blockLines (folds : Bool) (indent : Nat) :
    Nat → List Char → List Char → List Char → Cursor → List Char × List Char × List Char × Cursor
  | 0, read, last, breaks, c => (read, last, breaks, c)
  | fuel + 1, read, last, breaks, c =>
    if c.column != indent || c.rest.isEmpty then (read, last, breaks, c)
    else
      let isSpace (x : Option Char) : Bool := x == some ' ' || x == some '\t'
      let (line, after) := c.span (!isBreak ·)
      let read := read ++ breaks ++ line
      let (last, after) :=
        match after.lineBreak? with
        | some (b, after) => ([b], after)
        | none => ([], after)
      let (breaks, after) := indentedBreaks indent (after.rest.length + 1) after
      if after.column == indent && !after.rest.isEmpty then
        if folds && last == ['\n'] && !isSpace c.peek? && !isSpace after.peek? then
          let joint := if breaks.isEmpty then [' '] else []
          blockLines folds indent fuel (read ++ joint) last breaks after
        else blockLines folds indent fuel (read ++ last) last breaks after
      else (read, last, breaks, after)

end ModuleAssembly.Yaml.ScalarText
