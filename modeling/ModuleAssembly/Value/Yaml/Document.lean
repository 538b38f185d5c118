import ModuleAssembly.Text.Lines
import ModuleAssembly.Value.Yaml.Node
import ModuleAssembly.Value.Yaml.Plain

/-!
# YAML documents

`Yaml.read` reads a text that holds one document, or none. The value of a node follows from its tag,
and without one from its text. Keys are scalars; a repeated key keeps its last value. A mapping may
merge others into it: their entries come first, and its own count. A reference has the value of the
node that was named before it.
-/

namespace ModuleAssembly.Yaml

/-- Why a text has no value. -/
inductive Failure where
  /-- It is no document. -/
  | malformed
  /-- A scalar of its document has no value. -/
  | badScalar (fault : Plain.Fault)
deriving DecidableEq, Repr, Inhabited

/-- The wording of a failure. -/
def Failure.message : Failure → String
  | malformed => "Malformed document"
  | badScalar fault => fault.message

/-- The values of the nodes that have a name, as far as a document was read. -/
abbrev Reading := StateT (List (String × Value)) (Except Failure)

namespace Node

/-- The start of the tags that every document knows. -/
def commonTag (name : String) : String :=
  "tag:yaml.org,2002:" ++ name

/-- The kinds of scalars by the names of their tags. -/
def scalarTags : List (String × Plain.Kind) :=
  [("null", .null), ("bool", .bool), ("int", .int), ("float", .float), ("timestamp", .moment),
    ("str", .text), ("merge", .mergeKey), ("value", .defaultKey)].map fun entry =>
      (commonTag entry.1, entry.2)

/-- The tag of a node in full, unless the node leaves it open. -/
def fullTag (handles : List (String × String)) (p : Properties) : Reading (Option String) :=
  match p.tag with
  | none => return none
  | some ⟨none, suffix⟩ => return if suffix = "!" then none else some suffix
  | some ⟨some handle, suffix⟩ =>
    match handles.lookup handle with
    | some start => return some (start ++ suffix)
    | none => throw .malformed

/-- The kind of a scalar. An unquoted one without a tag follows from its text, and so does one that
leaves its tag open expressly. -/
def scalarKind (handles : List (String × String)) (p : Properties) (text : String) (plain : Bool) :
    Reading Plain.Kind := do
  match ← fullTag handles p with
  | none => return if plain || p.tag.isSome then Plain.kindOf text else .text
  | some tag =>
    match scalarTags.lookup tag with
    | some kind => return kind
    | none => throw .malformed

/-- Checks that the tag of a collection is the common one of its kind, if there is one. -/
def checkTag (handles : List (String × String)) (p : Properties) (name : String) :
    Reading Unit := do
  match ← fullTag handles p with
  | none => return
  | some tag => if tag = commonTag name then return else throw .malformed

/-- Gives a value the name of its node. A name may be given once. -/
def named (p : Properties) (v : Value) : Reading Value := do
  match p.anchor with
  | none => return v
  | some name =>
    if ((← get).lookup name).isSome then throw .malformed
    modify ((name, v) :: ·)
    return v

/-- The value that a name was given. -/
def valueNamed (name : String) : Reading Value := do
  match (← get).lookup name with
  | some v => return v
  | none => throw .malformed

/-- The value of the text of a scalar. A fault in the form of a scalar makes a document
malformed. -/
def scalarValue (kind : Plain.Kind) (text : String) : Reading Value :=
  match Plain.read kind text with
  | .ok s => return .scalar s
  | .error .malformed => throw .malformed
  | .error fault => throw (.badScalar fault)

/-- The kind of a node that is a scalar. -/
def kind? (handles : List (String × String)) : Node → Reading (Option Plain.Kind)
  | .scalar p text plain => some <$> scalarKind handles p text plain
  | _ => return none

/-- The entries of a mapping that is merged into another, or of several, of which the first
counts. -/
def mergedEntries : Value → Reading Entries
  | .mapping entries => return entries
  | .list values => do
    let parts ← values.mapM fun v =>
      match v with
      | .mapping entries => return entries
      | _ => throw .malformed
    return parts.reverse.flatten
  | _ => throw .malformed

/-- The scalar of a key. -/
def keyOf : Value → Reading Scalar
  | .scalar s => return s
  | _ => throw .malformed

mutual

/-- The value of a node. -/
def value (handles : List (String × String)) : Node → Reading Value
  | .reference name => valueNamed name
  | .scalar p text plain => do
    let kind ← scalarKind handles p text plain
    named p (← scalarValue kind text)
  | .sequence p items => do
    checkTag handles p "seq"
    named p (.list (← values handles items))
  | .mapping p entries => do
    checkTag handles p "map"
    let (merged, own) ← entryValues handles entries
    named p (.mapping ((merged ++ own).foldl (fun es e => Association.insert es e.1 e.2) []))

/-- The values of nodes. -/
def values (handles : List (String × String)) : List Node → Reading (List Value)
  | [] => return []
  | node :: nodes => do
    let v ← value handles node
    let vs ← values handles nodes
    return v :: vs

/-- The values of the entries of a mapping: those merged into it, and its own. -/
def entryValues (handles : List (String × String)) :
    List (Node × Node) → Reading (Entries × Entries)
  | [] => return ([], [])
  | (key, node) :: rest => do
    match ← kind? handles key with
    | some .mergeKey =>
      let entries ← mergedEntries (← value handles node)
      let (merged, own) ← entryValues handles rest
      return (entries ++ merged, own)
    | some .defaultKey =>
      let v ← value handles node
      let (merged, own) ← entryValues handles rest
      return (merged, (.text "=", v) :: own)
    | _ =>
      let k ← keyOf (← value handles key)
      let v ← value handles node
      let (merged, own) ← entryValues handles rest
      return (merged, (k, v) :: own)

end

end Node

/-- The value of a document. -/
def Document.value (d : Document) : Except Failure Value :=
  ((d.node.value d.handles).run []).map (·.1)

/-- Reads a text with at most one document; without one the value is null. -/
def read (s : String) : Except Failure Value :=
  match (Token.scan (Text.lineFeeds s.toList)).bind fun ts => Document.ofTokens? ts.toList with
  | some document => document.value
  | none => .error .malformed

end ModuleAssembly.Yaml
