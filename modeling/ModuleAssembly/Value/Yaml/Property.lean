import ModuleAssembly.Value.Json
import ModuleAssembly.Value.Yaml.Cursor

/-!
# Names in a YAML text

A node may have an anchor, by which an alias refers to it, and a tag, which says what kind of node
it is; a directive in front of a document may say what the handles of its tags stand for. The
functions of this module read these marks from a cursor on, after the sign they start with.
-/

namespace ModuleAssembly.Yaml

/-- A tag as it is written: a suffix, after a handle unless the tag is written in full. -/
structure TagText where
  /-- What stands for the start of the tag. -/
  handle : Option String
  /-- The rest of the tag. -/
  suffix : String
deriving DecidableEq, Repr, Inhabited

/-- A line that says something about the document after it. -/
inductive Directive where
  /-- The version of the format, by its first number. -/
  | version (major : Nat)
  /-- What a handle stands for. -/
  | handle (name start : String)
  /-- Something that does not matter. -/
  | reserved
deriving DecidableEq, Repr, Inhabited

namespace Cursor

/-- A character of the name of an anchor, a handle or a directive. -/
def isNameChar (c : Char) : Bool :=
  c.isAlphanum || c == '-' || c == '_'

/-- Whether a space, the end of a line or the end of the text comes next. -/
def atEnd (c : Cursor) : Bool :=
  c.peek?.all fun x => x == ' ' || isBreak x

/-- Reads the name of an anchor or alias. -/
def anchorName? (c : Cursor) : Option (String × Cursor) :=
  let (name, after) := c.span isNameChar
  let ends := startsBlank after.rest || after.peek?.any ("?:,]\x7d%@\x60".toList.contains ·)
  if name.isEmpty || !ends then none else some (String.ofList name, after)

/-! ## Tags -/

/-- A character of a tag that stands for itself. -/
def isTagChar (c : Char) : Bool :=
  c.isAlphanum || "-;/?:@&=+$,_.!~*'()[]".toList.contains c

/-- Reads the bytes that are written by a percent sign and two digits each. -/
def escapedBytes? : List Char → Option (List UInt8)
  | '%' :: a :: b :: rest => do
    let a ← Json.hexValue? a
    let b ← Json.hexValue? b
    let bytes ← escapedBytes? rest
    return UInt8.ofNat (a * 16 + b) :: bytes
  | '%' :: _ => none
  | _ => some []

/-- Reads the text of a tag; `fuel` bounds the number of its parts. -/
def tagParts? : Nat → Cursor → Option (List Char × Cursor)
  | 0, c => some ([], c)
  | fuel + 1, c => do
    let (part, c) := c.span isTagChar
    if c.peek? == some '%' then
      let bytes ← escapedBytes? c.rest
      let escaped ← String.fromUTF8? ⟨bytes.toArray⟩
      let (rest, c) ← tagParts? fuel (c.skip (3 * bytes.length))
      return (part ++ escaped.toList ++ rest, c)
    else return (part, c)

/-- Reads the text of a tag, which is not empty. -/
def tagSuffix? (c : Cursor) : Option (String × Cursor) := do
  let (cs, after) ← tagParts? (c.rest.length + 1) c
  if after.offset = c.offset then none else return (String.ofList cs, after)

/-- Reads a handle from its first mark on: the mark alone, or a name between two. -/
def tagHandle? (c : Cursor) : Option (String × Cursor) :=
  if c.peek? != some '!' then none
  else
    let (name, after) := (c.skip 1).span isNameChar
    if after.peek? == some '!' then
      some ("!" ++ String.ofList name ++ "!", after.skip 1)
    else if after.peek? == some ' ' && name.isEmpty then some ("!", after)
    else none

/-- Reads a tag from its mark on. -/
def tag? (c : Cursor) : Option (TagText × Cursor) := do
  let next := c.skip 1
  let (tag, after) ←
    if next.peek? == some '<' then do
      let (suffix, after) ← (next.skip 1).tagSuffix?
      if after.peek? == some '>' then some (⟨none, suffix⟩, after.skip 1) else none
    else if startsBlank next.rest then some (⟨none, "!"⟩, next)
    else do
      let word := next.rest.takeWhile fun x => !(x == ' ' || isBreak x)
      let (handle, after) ← if word.contains '!' then c.tagHandle? else some ("!", next)
      let (suffix, after) ← after.tagSuffix?
      some (⟨some handle, suffix⟩, after)
  if after.atEnd then return (tag, after) else none

/-! ## Directives -/

/-- Reads a number. -/
def number? (c : Cursor) : Option (Nat × Cursor) :=
  let (digits, after) := c.span Char.isDigit
  if digits.isEmpty then none else some (Text.digitsValue digits, after)

/-- Reads the version after the name of its directive. -/
def version? (c : Cursor) : Option (Directive × Cursor) := do
  let (major, c) ← (c.skipWhile (· == ' ')).number?
  if c.peek? == some '.' then
    let (_, c) ← (c.skip 1).number?
    return (.version major, c)
  else none

/-- Reads a handle, and what it stands for, after the name of their directive. -/
def handle? (c : Cursor) : Option (Directive × Cursor) := do
  let (name, c) ← (c.skipWhile (· == ' ')).tagHandle?
  if c.peek? == some ' ' then
    let (start, c) ← (c.skipWhile (· == ' ')).tagSuffix?
    return (.handle name start, c)
  else none

/-- Reads the line of a directive from its mark on. -/
def directive? (c : Cursor) : Option (Directive × Cursor) := do
  let (name, c) := (c.skip 1).span isNameChar
  if name.isEmpty || !c.atEnd then none
  else
    let (directive, c) ←
      match String.ofList name with
      | "YAML" => c.version?
      | "TAG" => c.handle?
      | _ => some (.reserved, c.skipWhile (!isBreak ·))
    if !c.atEnd then none
    else
      let c := c.skipWhile (· == ' ')
      let c := if c.peek? == some '#' then c.skipWhile (!isBreak ·) else c
      match c.lineBreak? with
      | some (_, c) => return (directive, c)
      | none => if c.rest.isEmpty then return (directive, c) else none

end Cursor

end ModuleAssembly.Yaml
