import ModuleAssembly.Item
import ModuleAssembly.Proofs.Code.Expansion
import ModuleAssembly.Proofs.Validation.Documents

/-!
# The places of types in a document

A `Part` says what a value in the document of a file is read as, as far as types may stand in it:
`Part.fields` lists, for each part, the fields that hold other parts. So it says which places are
slots of types: the values that `Part.Within` finds as such. In the document that is written for a
file every one of them is the long form of a type, or null where a type may be missing
(`Part.IsLong`).
-/

namespace ModuleAssembly

/-- What a value in the document of a file is read as. -/
inductive Part where
  /-- Something that no type stands in. -/
  | other
  /-- A type, or null where one may be missing. -/
  | type
  /-- An argument of a code block, which is bound to the placeholder of a type or to another. -/
  | argument (bound : Bool)
  /-- A code block. -/
  | block
  /-- A property. -/
  | property
  /-- A parameter. -/
  | parameter
  /-- A function. -/
  | function
  /-- A member of a file. -/
  | member
  /-- A file. -/
  | file
  /-- A list; each item has the part of its index. -/
  | list (item : Nat → Part)

/-- The text of a field, or the empty one. -/
def Entries.text (entries : Entries) (name : String) : String :=
  match entries.field? name with
  | some (.text s) => s
  | _ => ""

namespace Part

/-- A list of items of one part. -/
abbrev each (item : Part) : Part :=
  .list fun _ => item

/-- The fields of a type of a kind that hold types. -/
def typeFields : String → List (String × Part)
  | "union" => [("choices", .each .type)]
  | "array" => [("element", .type)]
  | "generic" => [("base", .type), ("args", .each .type)]
  | _ => []

/-- The field of a code block with a format that holds its arguments. -/
def blockFields (format : String) : List (String × Part) :=
  [("args", .list fun i => .argument ((Format.placeholders format)[i]? == some .type))]

/-- The fields of a property that hold a type or code. -/
def propertyFields : List (String × Part) :=
  [("type", .type), ("initializer", .block)]

/-- The fields of a function that hold types or code. -/
def functionFields : List (String × Part) :=
  [("parameters", .each .parameter), ("return_type", .type), ("body", .block)]

/-- The fields of a member of a kind that hold types or code. -/
def memberFields (entries : Entries) : String → List (String × Part)
  | "interface" =>
    [("extends", .each .type), ("properties", .each .property), ("methods", .each .function)]
  | "class" =>
    [("extends", .type), ("implements", .each .type), ("properties", .each .property),
      ("methods", .each .function)]
  | "function" => functionFields
  | "property" => propertyFields
  | "type_alias" => [("type", .type)]
  | "code_block" => blockFields (entries.text "format")
  | _ => []

/-- The fields of a part that hold parts, by its entries. -/
def fields (entries : Entries) : Part → List (String × Part)
  | .type | .argument _ => typeFields (entries.text "kind")
  | .block => blockFields (entries.text "format")
  | .property => propertyFields
  | .parameter => [("type", .type)]
  | .function => functionFields
  | .member => memberFields entries (entries.text "kind")
  | .file => [("members", .each .member)]
  | .other | .list _ => []

/-- The part of a field, by the key of the field. -/
def ofKey (p : Part) (entries : Entries) : Scalar → Part
  | .text name => ((p.fields entries).lookup name).getD .other
  | _ => .other

/-- Somewhere in a value that is read as a part stands another value, which is read as another
part. -/
inductive Within : Part → Value → Part → Value → Prop where
  /-- The value itself. -/
  | self (p : Part) (v : Value) : Within p v p v
  /-- In a field. -/
  | field {p q : Part} {entries : Entries} {key : Scalar} {v w : Value} :
    (key, v) ∈ entries → Within (p.ofKey entries key) v q w → Within p (.mapping entries) q w
  /-- In an item. -/
  | item {item : Nat → Part} {q : Part} {vs : List Value} {i : Nat} {v w : Value} :
    vs[i]? = some v → Within (item i) v q w → Within (.list item) (.list vs) q w

/-! ## Documents that are written -/

/-- Whether a value is written for a part. -/
def IsLong : Part → Value → Prop
  | .other, _ => True
  | .type, v => ∃ t : Option TypeExpr, v = optionalValue TypeExpr.toValue t
  | .argument _, v => ∃ a : Argument, v = a.toValue
  | .block, v => ∃ b : Option CodeBlock, v = optionalValue CodeBlock.toValue b
  | .property, v => ∃ p : Property, v = p.toValue
  | .parameter, v => ∃ p : Parameter, v = p.toValue
  | .function, v => ∃ f : Function, v = f.toValue
  | .member, v => ∃ m : Member, v = m.toValue
  | .file, v => ∃ f : FileModel, v = f.toValue
  | .list item, v => ∃ vs, v = .list vs ∧ ∀ i w, vs[i]? = some w → (item i).IsLong w

/-- A list of documents is written for a list of their part. -/
theorem isLong_each {α : Type} {item : Part} {toValue : α → Value}
    (h : ∀ x, item.IsLong (toValue x)) (xs : List α) :
    (each item).IsLong (.list (xs.map toValue)) := by
  refine ⟨_, rfl, fun i w hw => ?_⟩
  rw [List.getElem?_map] at hw
  obtain ⟨x, -, rfl⟩ := Option.map_eq_some_iff.1 hw
  exact h x

/-- The long form of a type is written for a type. -/
theorem isLong_type (t : TypeExpr) : type.IsLong t.toValue :=
  ⟨some t, rfl⟩

/-- The document of a property is written for a property. -/
theorem isLong_property (p : Property) : property.IsLong p.toValue :=
  ⟨p, rfl⟩

/-- The document of a parameter is written for a parameter. -/
theorem isLong_parameter (p : Parameter) : parameter.IsLong p.toValue :=
  ⟨p, rfl⟩

/-- The document of a function is written for a function. -/
theorem isLong_function (f : Function) : function.IsLong f.toValue :=
  ⟨f, rfl⟩

/-- The document of a member is written for a member. -/
theorem isLong_member (m : Member) : member.IsLong m.toValue :=
  ⟨m, rfl⟩

/-- The long forms of several types are written for a list of types. -/
theorem isLong_types (ts : List TypeExpr) : (each .type).IsLong (.list (TypeExpr.toValues ts)) := by
  rw [TypeExpr.toValues_eq_map]
  exact isLong_each isLong_type ts

/-- In a mapping every field holds what is written for its part. -/
def HoldsLong (p : Part) (v : Value) : Prop :=
  ∀ entry ∈ v.entries, (p.ofKey v.entries entry.1).IsLong entry.2

/-- In a mapping with named fields this may be seen field by field. -/
theorem holdsLong_object {p : Part} {fields : List (String × Value)}
    (h : ∀ field ∈ fields, (p.ofKey (Value.object fields).entries (.text field.1)).IsLong field.2) :
    p.HoldsLong (.object fields) := by
  intro entry hentry
  obtain ⟨field, hfield, rfl⟩ := List.mem_map.1 hentry
  exact h field hfield

/-- The long form of a type holds long forms, also where it is an argument. -/
theorem holdsLong_type {p : Part}
    (hp : ∀ entries, p.fields entries = typeFields (entries.text "kind")) (t : TypeExpr) :
    p.HoldsLong t.toValue := by
  cases t with
  | symbol s =>
    refine holdsLong_object ?_
    simp only [ofKey, hp, List.forall_mem_cons]
    exact ⟨trivial, trivial, trivial, nofun⟩
  | named name =>
    refine holdsLong_object ?_
    simp only [ofKey, hp, List.forall_mem_cons]
    exact ⟨trivial, trivial, nofun⟩
  | union first others =>
    refine holdsLong_object ?_
    simp only [ofKey, hp, List.forall_mem_cons]
    exact ⟨trivial, isLong_types (first :: others), nofun⟩
  | array element =>
    refine holdsLong_object ?_
    simp only [ofKey, hp, List.forall_mem_cons]
    exact ⟨trivial, isLong_type element, nofun⟩
  | generic base args =>
    refine holdsLong_object ?_
    simp only [ofKey, hp, List.forall_mem_cons]
    exact ⟨trivial, isLong_type base, isLong_types args, nofun⟩

/-- The document of a code block holds long forms. -/
theorem holdsLong_block (b : CodeBlock) : block.HoldsLong b.toValue := by
  refine holdsLong_object ?_
  simp only [List.forall_mem_cons]
  refine ⟨trivial, trivial, ⟨_, rfl, fun i w hw => ?_⟩, nofun⟩
  rw [List.getElem?_map] at hw
  obtain ⟨a, -, rfl⟩ := Option.map_eq_some_iff.1 hw
  exact ⟨a, rfl⟩

/-- The document of a property holds long forms. -/
theorem holdsLong_property (p : Property) : property.HoldsLong p.toValue := by
  refine holdsLong_object ?_
  simp only [List.forall_mem_cons]
  exact ⟨trivial, trivial, ⟨p.type, rfl⟩, trivial, trivial, trivial, ⟨p.initial, rfl⟩, trivial,
    trivial, nofun⟩

/-- The document of a parameter holds long forms. -/
theorem holdsLong_parameter (p : Parameter) : parameter.HoldsLong p.toValue := by
  refine holdsLong_object ?_
  simp only [List.forall_mem_cons]
  exact ⟨trivial, ⟨p.type, rfl⟩, trivial, trivial, nofun⟩

/-- The document of a function holds long forms. -/
theorem holdsLong_function (f : Function) : function.HoldsLong f.toValue := by
  refine holdsLong_object ?_
  simp only [List.forall_mem_cons]
  exact ⟨trivial, trivial, isLong_each isLong_parameter f.parameters, ⟨f.result, rfl⟩,
    ⟨f.body, rfl⟩, trivial, trivial, trivial, nofun⟩

/-- The document of a member holds long forms. -/
theorem holdsLong_member (m : Member) : member.HoldsLong m.toValue := by
  cases m with
  | code b => exact holdsLong_block b
  | declaration d =>
    cases d with
    | interface d =>
      refine holdsLong_object ?_
      simp only [List.forall_mem_cons]
      exact ⟨trivial, trivial, isLong_each isLong_type d.bases,
        isLong_each isLong_property d.properties, isLong_each isLong_function d.methods,
        trivial, trivial, nofun⟩
    | classType d =>
      refine holdsLong_object ?_
      simp only [List.forall_mem_cons]
      exact ⟨trivial, trivial, ⟨d.base, rfl⟩, isLong_each isLong_type d.interfaces,
        isLong_each isLong_property d.properties, isLong_each isLong_function d.methods,
        trivial, trivial, trivial, nofun⟩
    | enumeration d =>
      refine holdsLong_object ?_
      simp only [List.forall_mem_cons]
      exact ⟨trivial, trivial, trivial, trivial, trivial, trivial, nofun⟩
    | function f => exact holdsLong_function f
    | constant p => exact holdsLong_property p
    | typeAlias d =>
      refine holdsLong_object ?_
      simp only [List.forall_mem_cons]
      exact ⟨trivial, trivial, isLong_type d.type, trivial, trivial, nofun⟩

/-- The document of a file holds long forms. -/
theorem holdsLong_file (f : FileModel) : file.HoldsLong f.toValue := by
  refine holdsLong_object ?_
  simp only [List.forall_mem_cons]
  exact ⟨trivial, trivial, isLong_each isLong_member f.members, nofun⟩

/-- A mapping that is written for a part holds what is written for its fields. -/
theorem holdsLong_of_isLong {p : Part} {entries : Entries} (h : p.IsLong (.mapping entries)) :
    p.HoldsLong (.mapping entries) := by
  cases p with
  | other =>
    intro entry _
    cases entry.1 with
    | text _ | null | bool _ | int _ | float _ | moment _ => trivial
  | type =>
    obtain ⟨_ | t, ht⟩ := h
    · cases ht
    · rw [ht]
      exact holdsLong_type (fun _ => rfl) t
  | argument bound =>
    obtain ⟨a, ha⟩ := h
    cases a with
    | type t =>
      rw [ha]
      exact holdsLong_type (fun _ => rfl) t
    | text _ | int _ | float _ | bool _ => cases ha
  | block =>
    obtain ⟨_ | b, hb⟩ := h
    · cases hb
    · rw [hb]
      exact holdsLong_block b
  | property =>
    obtain ⟨p, hp⟩ := h
    rw [hp]
    exact holdsLong_property p
  | parameter =>
    obtain ⟨p, hp⟩ := h
    rw [hp]
    exact holdsLong_parameter p
  | function =>
    obtain ⟨f, hf⟩ := h
    rw [hf]
    exact holdsLong_function f
  | member =>
    obtain ⟨m, hm⟩ := h
    rw [hm]
    exact holdsLong_member m
  | file =>
    obtain ⟨f, hf⟩ := h
    rw [hf]
    exact holdsLong_file f
  | list item =>
    obtain ⟨vs, hvs, -⟩ := h
    cases hvs

/-- What stands in what is written for a part is written for its own part. -/
theorem Within.isLong {p q : Part} {v w : Value} (h : Within p v q w) (hv : p.IsLong v) :
    q.IsLong w := by
  induction h with
  | self => exact hv
  | field hentry _ ih => exact ih (holdsLong_of_isLong hv _ hentry)
  | item hi _ ih =>
    obtain ⟨vs, hvs, hitems⟩ := hv
    cases hvs
    exact ih (hitems _ _ hi)

end Part

/-- An argument that is no type is written as a value of its own kind. -/
theorem Argument.valueKind_toValue (a : Argument) :
    (∃ t, a = .type t) ∨ Item.valueKind a.toValue = a.kindName := by
  cases a with
  | type t => exact .inl ⟨t, rfl⟩
  | text _ | int _ | float _ | bool _ => exact .inr rfl

/-- A file that is read from a document, in whatever forms its values are written, is read back from
its own document. So are the kinds of its values, since models of different kinds differ; those of
the arguments show in the document. No slot of a type holds a short form there. -/
theorem FileModel.ofValue_toValue_of_valid {v : Value} {f : FileModel} (h : ofValue v = .valid f) :
    ofValue f.toValue = .valid f ∧
      (∀ b ∈ f.blocks, ∀ a ∈ b.args, (∃ t, a = .type t) ∨
        Item.valueKind a.toValue = a.kindName) ∧
      ∀ w, Part.Within .file f.toValue .type w → ∀ s, w ≠ .text s := by
  refine ⟨readBack v f h, fun b _ a _ => a.valueKind_toValue, ?_⟩
  rintro w hw s rfl
  obtain ⟨_ | t, ht⟩ := hw.isLong ⟨f, rfl⟩
  · cases ht
  · obtain ⟨entries, hentries⟩ := t.exists_toValue_eq
    rw [optionalValue, hentries] at ht
    cases ht

/-- A document with an integer for a truth value, a float for an integer, short forms of types
within a type and as an argument, and arguments of four kinds. -/
theorem FileModel.ofValue_toValue_of_lenient :
    let block : Value := .object
      [("format", .text "%T %L %L %L"),
        ("args", .list [.text "Item@./item", .text "1", .int 1, .bool true])]
    let doc : Value := .object
      [("path", .text "a.ts"),
        ("members", .list
          [.object [("kind", .text "enum"), ("name", .text "E"), ("const", .int 1),
              ("constants", .list
                [.object [("name", .text "A"), ("value", .float ⟨0x4000000000000000⟩)]])],
            .object [("kind", .text "property"), ("name", .text "p"), ("initializer", block),
              ("type", .object
                [("kind", .text "array"), ("element", .text "Item@./item")])]])]
    let f : FileModel :=
      { path := "a.ts"
        members := [
          .declaration (.enumeration
            { name := "E"
              constants := [{ name := "A", value := some (.int 2) }]
              isConst := true }),
          .declaration (.constant
            { name := "p", type := some (.array (.symbol ⟨"Item", "./item"⟩))
              initial := some
                ⟨"%T %L %L %L", [.text "Item@./item", .text "1", .int 1, .bool true]⟩ })] }
    ofValue doc = .valid f ∧ ofValue f.toValue = .valid f := by
  intro block doc f
  have hread : ofValue doc = .valid f := rfl
  exact ⟨hread, (ofValue_toValue_of_valid hread).1⟩

end ModuleAssembly
