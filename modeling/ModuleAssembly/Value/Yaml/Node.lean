import ModuleAssembly.Value.Yaml.Token

/-!
# Nodes of a YAML document

A node is a scalar, a sequence or a mapping as it is written, or a reference to another node by its
anchor. `Document.ofTokens?` reads the directives and the node of the one document of a text. A node
that is left out, as between a colon and the next key, is an unquoted scalar without text.

Every reader takes the tokens and gives a node with the tokens after it; `fuel` bounds the number
of nested calls, which the number of tokens does.
-/

namespace ModuleAssembly.Yaml

/-- What may stand in front of a node. -/
structure Properties where
  /-- Its name. -/
  anchor : Option String := none
  /-- Its tag. -/
  tag : Option TagText := none
deriving DecidableEq, Repr, Inhabited

/-- A part of a document as it is written. -/
inductive Node where
  /-- A reference to another node. -/
  | reference (name : String)
  /-- A scalar, and whether it is unquoted. -/
  | scalar (properties : Properties) (text : String) (plain : Bool)
  /-- A sequence of nodes. -/
  | sequence (properties : Properties) (items : List Node)
  /-- A mapping, by its keys and values. -/
  | mapping (properties : Properties) (entries : List (Node × Node))
deriving Repr, Inhabited

/-- A document, with what the handles of its tags stand for. -/
structure Document where
  /-- The handles and what they stand for. -/
  handles : List (String × String)
  /-- Its node. -/
  node : Node
deriving Repr, Inhabited

namespace Node

/-- A node that is left out. -/
def missing (properties : Properties) : Node :=
  .scalar properties "" true

/-- Whether the tokens start with one of the given ones. -/
def startsWithAny (ts : List Token) (ends : List Token) : Bool :=
  ts.head?.any ends.contains

/-- Reads what may stand in front of a node: a name and a tag in either order. -/
def readProperties : List Token → Properties × List Token
  | .anchor name :: .tag tag :: rest => (⟨some name, some tag⟩, rest)
  | .anchor name :: rest => (⟨some name, none⟩, rest)
  | .tag tag :: .anchor name :: rest => (⟨some name, some tag⟩, rest)
  | .tag tag :: rest => (⟨none, some tag⟩, rest)
  | ts => ({}, ts)

mutual

/-- Reads a node. Where `block` holds it may be a block; where `dashes` holds it may be a sequence
at the column of the mapping around it, which has no start token. -/
def read? (fuel : Nat) (block dashes : Bool) (ts : List Token) : Option (Node × List Token) :=
  match fuel, ts with
  | 0, _ => none
  | _ + 1, .reference name :: rest => some (.reference name, rest)
  | fuel + 1, ts =>
    let (properties, ts) := readProperties ts
    match ts with
    | .scalar text plain :: rest => some (.scalar properties text plain, rest)
    | .flowSequenceStart :: rest => do
      let (items, rest) ← readFlowItems? fuel true rest
      return (.sequence properties items, rest)
    | .flowMappingStart :: rest => do
      let (entries, rest) ← readFlowEntries? fuel true rest
      return (.mapping properties entries, rest)
    | .blockSequenceStart :: rest =>
      if block then do
        let (items, rest) ← readDashes? fuel [.blockEntry, .blockEnd] rest
        match rest with
        | .blockEnd :: rest => return (.sequence properties items, rest)
        | _ => none
      else if properties = {} then none
      else some (missing properties, ts)
    | .blockMappingStart :: rest =>
      if block then do
        let (entries, rest) ← readEntries? fuel rest
        return (.mapping properties entries, rest)
      else if properties = {} then none
      else some (missing properties, ts)
    | .blockEntry :: _ =>
      if dashes then do
        let (items, rest) ← readDashes? fuel [.blockEntry, .key, .value, .blockEnd] ts
        return (.sequence properties items, rest)
      else if properties = {} then none
      else some (missing properties, ts)
    | _ => if properties = {} then none else some (missing properties, ts)

/-- Reads a node, which is left out if the tokens start with one of `ends`. -/
def readOptional? (fuel : Nat) (block dashes : Bool) (ends : List Token) (ts : List Token) :
    Option (Node × List Token) :=
  match fuel with
  | 0 => none
  | fuel + 1 =>
    if startsWithAny ts ends then some (missing {}, ts) else read? fuel block dashes ts

/-- Reads the items of a block sequence, each after its dash; an item is left out if one of `ends`
follows the dash. -/
def readDashes? (fuel : Nat) (ends : List Token) (ts : List Token) :
    Option (List Node × List Token) :=
  match fuel, ts with
  | fuel + 1, .blockEntry :: rest => do
    let (item, rest) ← readOptional? fuel true false ends rest
    let (items, rest) ← readDashes? fuel ends rest
    return (item :: items, rest)
  | _ + 1, ts => some ([], ts)
  | 0, _ => none

/-- Reads the entries of a block mapping up to its end. -/
def readEntries? (fuel : Nat) (ts : List Token) : Option (List (Node × Node) × List Token) :=
  match fuel, ts with
  | fuel + 1, .key :: rest => do
    let ends : List Token := [.key, .value, .blockEnd]
    let (key, rest) ← readOptional? fuel true true ends rest
    let (value, rest) ←
      match rest with
      | .value :: rest => readOptional? fuel true true ends rest
      | _ => some (missing {}, rest)
    let (entries, rest) ← readEntries? fuel rest
    return ((key, value) :: entries, rest)
  | _ + 1, .blockEnd :: rest => some ([], rest)
  | _, _ => none

/-- Reads the items of a flow sequence up to its bracket. An item with a key is a mapping of one
entry. -/
def readFlowItems? (fuel : Nat) (first : Bool) (ts : List Token) :
    Option (List Node × List Token) :=
  match fuel, first, ts with
  | _ + 1, _, .flowSequenceEnd :: rest => some ([], rest)
  | fuel + 1, false, .flowEntry :: rest =>
    if startsWithAny rest [.flowSequenceEnd] then readFlowItems? fuel true rest
    else readFlowItem? fuel rest
  | fuel + 1, true, ts => readFlowItem? fuel ts
  | _, _, _ => none

/-- Reads an item of a flow sequence and those after it. -/
def readFlowItem? (fuel : Nat) (ts : List Token) : Option (List Node × List Token) :=
  match fuel, ts with
  | fuel + 1, .key :: rest => do
    let (key, rest) ← readOptional? fuel false false [.value, .flowEntry, .flowSequenceEnd] rest
    let (value, rest) ← readFlowValue? fuel .flowSequenceEnd rest
    let (items, rest) ← readFlowItems? fuel false rest
    return (.mapping {} [(key, value)] :: items, rest)
  | fuel + 1, ts => do
    let (item, rest) ← read? fuel false false ts
    let (items, rest) ← readFlowItems? fuel false rest
    return (item :: items, rest)
  | 0, _ => none

/-- Reads the value after a colon in a flow collection that ends with `close`; it is left out if
there is no colon. -/
def readFlowValue? (fuel : Nat) (close : Token) (ts : List Token) : Option (Node × List Token) :=
  match fuel, ts with
  | fuel + 1, .value :: rest => readOptional? fuel false false [.flowEntry, close] rest
  | _ + 1, ts => some (missing {}, ts)
  | 0, _ => none

/-- Reads the entries of a flow mapping up to its brace. -/
def readFlowEntries? (fuel : Nat) (first : Bool) (ts : List Token) :
    Option (List (Node × Node) × List Token) :=
  match fuel, first, ts with
  | _ + 1, _, .flowMappingEnd :: rest => some ([], rest)
  | fuel + 1, false, .flowEntry :: rest =>
    if startsWithAny rest [.flowMappingEnd] then readFlowEntries? fuel true rest
    else readFlowEntry? fuel rest
  | fuel + 1, true, ts => readFlowEntry? fuel ts
  | _, _, _ => none

/-- Reads an entry of a flow mapping and those after it. -/
def readFlowEntry? (fuel : Nat) (ts : List Token) : Option (List (Node × Node) × List Token) :=
  match fuel, ts with
  | fuel + 1, .key :: rest => do
    let (key, rest) ← readOptional? fuel false false [.value, .flowEntry, .flowMappingEnd] rest
    let (value, rest) ← readFlowValue? fuel .flowMappingEnd rest
    let (entries, rest) ← readFlowEntries? fuel false rest
    return ((key, value) :: entries, rest)
  | fuel + 1, ts => do
    let (key, rest) ← read? fuel false false ts
    let (entries, rest) ← readFlowEntries? fuel false rest
    return ((key, missing {}) :: entries, rest)
  | 0, _ => none

end

end Node

namespace Document

/-- The handles that need no directive. -/
def commonHandles : List (String × String) :=
  [("!", "!"), ("!!", "tag:yaml.org,2002:")]

/-- Whether a token is a directive. -/
def isDirective : Token → Bool
  | .directive _ => true
  | _ => false

/-- The handles that directives define. There may be one version, of the first edition of the
format, and one definition of a handle. -/
def handles? (versioned : Bool) (defined : List (String × String)) :
    List Token → Option (List (String × String))
  | .directive (.version major) :: ts =>
    if versioned || major != 1 then none else handles? true defined ts
  | .directive (.handle name start) :: ts =>
    if (defined.lookup name).isSome then none
    else handles? versioned (defined ++ [(name, start)]) ts
  | _ :: ts => handles? versioned defined ts
  | [] => some (defined ++ commonHandles)

/-- Reads the content of a document after its first line. -/
def content? (ts : List Token) : Option (Node × List Token) :=
  if ts.isEmpty || ts.head?.any isDirective ||
      Node.startsWithAny ts [.documentStart, .documentEnd] then
    some (Node.missing {}, ts)
  else Node.read? (4 * ts.length + 8) true false ts

/-- Reads the tokens of a text: at most one document, which is left out where there is none. -/
def ofTokens? (ts : List Token) : Option Document := do
  let directives := ts.takeWhile isDirective
  let handles ← handles? false [] directives
  let (node, rest) ←
    match ts.drop directives.length with
    | .documentStart :: ts => content? ts
    | ts =>
      if !directives.isEmpty then none
      else if ts.isEmpty then some (Node.missing {}, [])
      else Node.read? (4 * ts.length + 8) true false ts
  if rest.all (· == .documentEnd) then return ⟨handles, node⟩ else none

end Document

end ModuleAssembly.Yaml
