import ModuleAssembly.Descriptor.Schema
import ModuleAssembly.Text.Displayed

/-!
# Messages as bytes

The wire format of Protocol Buffers. A message is a sequence of fields, each with a number and a
payload. `Wire.read?` reads the fields of a message under a schema, which says what fields hold
messages: those are read in turn, and all must be well formed. Fields that are not known, or have a
payload of another form, are skipped. Messages and groups may be nested a hundred deep.

The other direction, the bytes of a field, is as simple as the format allows.
-/

namespace ModuleAssembly.Wire

open Descriptor (Schema)

/-- The payload of a field. -/
inductive Payload where
  /-- A number in seven bits a byte, of which sixty-four bits count. -/
  | varint (n : Nat)
  /-- Bytes after their length. -/
  | bytes (bs : List UInt8)
  /-- Numbers that stand together. -/
  | numbers (ns : List Nat)
  /-- A message, by its fields. -/
  | message (fields : List (Nat × Payload))
  /-- A payload that no field of a request has. -/
  | other
deriving Repr, Inhabited

/-- A field: its number and its payload. -/
abbrev FieldData := Nat × Payload

/-- How deeply messages and groups may be nested. -/
def depthLimit : Nat := 100

/-! ## Reading -/

/-- Reads a number of at most `fuel` bytes, the least significant seven bits first. -/
def readDigits? : Nat → List UInt8 → Option (Nat × List UInt8)
  | 0, _ => none
  | _, [] => none
  | fuel + 1, b :: rest =>
    if b.toNat < 128 then some (b.toNat, rest)
    else
      (readDigits? fuel rest).map fun (n, rest) => (b.toNat - 128 + 128 * n, rest)

/-- Reads a number of at most ten bytes, of which sixty-four bits count. -/
def readVarint? (bs : List UInt8) : Option (Nat × List UInt8) :=
  (readDigits? 10 bs).map fun (n, rest) => (n % 0x10000000000000000, rest)

/-- Reads the number and the wire type of a field: five bytes at most, and thirty-two bits. -/
def readTag? (bs : List UInt8) : Option (Nat × Nat × List UInt8) := do
  let (tag, rest) ← readDigits? 5 bs
  if tag < 0x100000000 ∧ 8 ≤ tag then return (tag / 8, tag % 8, rest) else none

/-- Reads `n` bytes. -/
def readBytes? (n : Nat) (bs : List UInt8) : Option (List UInt8 × List UInt8) :=
  let taken := bs.take n
  if taken.length = n then some (taken, bs.drop n) else none

/-- Reads bytes after their length: five bytes at most, and thirty-one bits. -/
def readBlock? (bs : List UInt8) : Option (List UInt8 × List UInt8) := do
  let (n, rest) ← readDigits? 5 bs
  if n < 0x7FFFFFFF then readBytes? n rest else none

/-- Reads a payload of a wire type other than a group, as it is. -/
def readPlain? (wireType : Nat) (bs : List UInt8) : Option (Payload × List UInt8) :=
  match wireType with
  | 0 => (readVarint? bs).map fun (n, rest) => (.varint n, rest)
  | 1 => (readBytes? 8 bs).map fun (_, rest) => (.other, rest)
  | 2 => (readBlock? bs).map fun (block, rest) => (.bytes block, rest)
  | 5 => (readBytes? 4 bs).map fun (_, rest) => (.other, rest)
  | _ => none

/-- Skips a group up to the tag that ends it. `groups` holds the numbers of the open groups, the
innermost first; there may be `depth` of them. `fuel` bounds the number of fields. -/
def skipGroup? (depth : Nat) : Nat → List Nat → List UInt8 → Option (List UInt8)
  | _, [], bs => some bs
  | 0, _, _ => none
  | fuel + 1, group :: groups, bs =>
    if depth < groups.length + 1 then none
    else do
      let (number, wireType, rest) ← readTag? bs
      if wireType = 4 then
        if number = group then skipGroup? depth fuel groups rest else none
      else if wireType = 3 then skipGroup? depth fuel (number :: group :: groups) rest
      else
        let (_, rest) ← readPlain? wireType rest
        skipGroup? depth fuel (group :: groups) rest

/-- Reads numbers one after the other up to the end; `fuel` bounds how many. -/
def readNumbers? : Nat → List UInt8 → Option (List Nat)
  | _, [] => some []
  | 0, _ => none
  | fuel + 1, bs => do
    let (n, rest) ← readVarint? bs
    let ns ← readNumbers? fuel rest
    return n :: ns

/-- Reads the fields of a message, in which others may be nested `depth` deep; `nested?` reads
those, and `fuel` bounds the number of fields. -/
def readFields? (schema : Schema) (depth : Nat)
    (nested? : Schema → List UInt8 → Option (List FieldData)) :
    Nat → List UInt8 → Option (List FieldData)
  | _, [] => some []
  | 0, _ => none
  | fuel + 1, bs => do
    let (number, wireType, rest) ← readTag? bs
    if wireType = 3 then
      let rest ← skipGroup? depth (rest.length + 1) [number] rest
      let fields ← readFields? schema depth nested? fuel rest
      return (number, .other) :: fields
    else
      let (payload, rest) ← readPlain? wireType rest
      let payload ←
        match payload, schema.part number with
        | .bytes block, .message inner => (nested? inner block).map .message
        | .bytes block, .numbers => (readNumbers? block.length block).map .numbers
        | payload, _ => some payload
      let fields ← readFields? schema depth nested? fuel rest
      return (number, payload) :: fields

/-- Reads the fields of a message, in which others may be nested `depth` deep. -/
def readMessage? : Nat → Schema → List UInt8 → Option (List FieldData)
  | 0 => fun schema bs => readFields? schema 0 (fun _ _ => none) bs.length bs
  | depth + 1 => fun schema bs =>
    readFields? schema (depth + 1) (readMessage? depth) bs.length bs

/-- Reads the fields of a message. -/
def read? (schema : Schema) (bs : List UInt8) : Option (List FieldData) :=
  readMessage? depthLimit schema bs

/-- The low thirty-two bits of a number. -/
def low32 (n : Nat) : Nat :=
  n % 0x100000000

/-- The signed number of thirty-two bits in the low half of a number. -/
def int32 (n : Nat) : Int :=
  if low32 n < 0x80000000 then (low32 n : Int) else (low32 n : Int) - 0x100000000

/-- The text of bytes, if they are one. -/
def text? (bs : List UInt8) : Option String :=
  String.fromUTF8? ⟨bs.toArray⟩

/-- The text of bytes; bytes that are none as they are shown. -/
def shown (bs : List UInt8) : String :=
  (text? bs).getD (Text.displayedBytes bs)

/-! ## Writing -/

/-- The bytes of a number in seven bits a byte; `fuel` bounds how many follow the first. -/
def varintBytes : Nat → Nat → List UInt8
  | 0, n => [UInt8.ofNat (n % 128)]
  | fuel + 1, n =>
    if n < 128 then [UInt8.ofNat n]
    else UInt8.ofNat (n % 128 + 128) :: varintBytes fuel (n / 128)

/-- The bytes of a number, as many as it needs. -/
def varint (n : Nat) : List UInt8 :=
  varintBytes n n

/-- The bytes of a field with a number. -/
def varintField (number n : Nat) : List UInt8 :=
  varint (number * 8) ++ varint n

/-- The bytes of a field with bytes. -/
def bytesField (number : Nat) (bs : List UInt8) : List UInt8 :=
  varint (number * 8 + 2) ++ varint bs.length ++ bs

/-- The bytes of a field with a text. -/
def textField (number : Nat) (s : String) : List UInt8 :=
  bytesField number s.toUTF8.data.toList

end ModuleAssembly.Wire
