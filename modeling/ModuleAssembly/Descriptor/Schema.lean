/-!
# The schema of requests

Which fields of a request hold messages, and which hold numbers that may stand together in one
payload. `Schema.part` tells the fields of each kind of message apart; a field that it does not
know, or that holds a single number or bytes, is plain.
-/

namespace ModuleAssembly.Descriptor

/-- The kinds of messages in a request. -/
inductive Schema where
  /-- The request itself. -/
  | request
  /-- A file. -/
  | file
  /-- The places of a file's source. -/
  | sourceInfo
  /-- A place of the source. -/
  | location
  /-- A message of a file. -/
  | message
  /-- A field of a message. -/
  | field
  /-- An enumeration. -/
  | enumeration
  /-- A value of an enumeration. -/
  | enumValue
  /-- A service. -/
  | service
  /-- A method of a service. -/
  | method
  /-- A group of alternatives. -/
  | oneof
  /-- A range of numbers for extensions. -/
  | extensionRange
  /-- Options, by the number of the field that holds their features. -/
  | options (features : Nat)
  /-- The options of a field. -/
  | fieldOptions
  /-- The options of a value of an enumeration. -/
  | enumValueOptions
  /-- The options of a range of numbers. -/
  | rangeOptions
  /-- An option that was not understood. -/
  | uninterpreted
  /-- A message that holds no message. -/
  | leaf
deriving DecidableEq, Repr, Inhabited

/-- What a field holds. -/
inductive Part where
  /-- A message. -/
  | message (schema : Schema)
  /-- Numbers, of which several may stand in one payload. -/
  | numbers
  /-- Anything else. -/
  | plain
deriving DecidableEq, Repr, Inhabited

namespace Schema

/-- What the fields that hold messages hold, by their numbers. -/
def messages : Schema → List (Nat × Schema)
  | request => [(3, leaf), (15, file), (17, file)]
  | file =>
    [(4, message), (5, enumeration), (6, service), (7, field), (8, options 50), (9, sourceInfo)]
  | sourceInfo => [(1, location)]
  | location => []
  | message =>
    [(2, field), (3, message), (4, enumeration), (5, extensionRange), (6, field), (7, options 12),
      (8, oneof), (9, leaf)]
  | field => [(8, fieldOptions)]
  | enumeration => [(2, enumValue), (3, options 7), (4, leaf)]
  | enumValue => [(3, enumValueOptions)]
  | service => [(2, method), (3, options 34)]
  | method => [(4, options 35)]
  | oneof => [(2, options 1)]
  | extensionRange => [(3, rangeOptions)]
  | options features => [(features, leaf), (999, uninterpreted)]
  | fieldOptions => [(20, leaf), (21, leaf), (22, leaf), (999, uninterpreted)]
  | enumValueOptions => [(2, leaf), (4, leaf), (999, uninterpreted)]
  | rangeOptions => [(2, leaf), (50, leaf), (999, uninterpreted)]
  | uninterpreted => [(2, leaf)]
  | leaf => []

/-- The numbers of the fields that hold several numbers. -/
def repeatedNumbers : Schema → List Nat
  | file => [10, 11]
  | location => [1, 2]
  | fieldOptions => [19]
  | _ => []

/-- What the field of a number holds. -/
def part (s : Schema) (number : Nat) : Part :=
  match s.messages.lookup number with
  | some inner => .message inner
  | none => if s.repeatedNumbers.contains number then .numbers else .plain

end Schema

end ModuleAssembly.Descriptor
