import ModuleAssembly.Proofs.Validation.Alike

/-!
# Short forms of types

A symbol with a name and a module that can be told apart in its written form may be written so
wherever a type is asked for, and a bare name without an `@` as it is. `Part.Shortened` says that
some of the types of a document are written so, at any places of types and of arguments that stand
for types. Such documents are read alike (`Part.Shortened.readAlike`), and so the files that are
read from them are assembled alike (`assemble_of_shortened`).
-/

namespace ModuleAssembly

/-! ## Types with short forms -/

/-- What a symbol has to satisfy for its parts to be told apart in its written form. -/
structure Symbol.IsWritable (s : Symbol) : Prop where
  /-- It has a name. -/
  name_ne : s.name ≠ ""
  /-- No sign in the name could be taken for the one that ends it. -/
  sign_notMem : '@' ∉ s.name.toList
  /-- It has a module. -/
  module_ne : s.module ≠ ""

/-- A symbol is read back from its written form. -/
theorem Symbol.parse?_spec {s : Symbol} (h : s.IsWritable) : parse? s.spec = some s := by
  have hsplit : splitAtSign s.spec.toList = some (s.name.toList, s.module.toList) :=
    splitAtSign_eq_some_iff.2 ⟨by simp [spec], h.sign_notMem⟩
  rw [parse?, hsplit]
  simp [h.name_ne, h.module_ne]

namespace TypeExpr

/-- The written form of a symbol is its short form as a type. -/
theorem ofShorthand?_spec {s : Symbol} (h : s.IsWritable) :
    ofShorthand? s.spec = some (.symbol s) := by
  have hsign : s.spec.toList.contains '@' = true := by simp [Symbol.spec]
  rw [ofShorthand?, if_pos hsign, Symbol.parse?_spec h, Option.map_some]

/-- A name without an `@` is its own short form as a type. -/
theorem ofShorthand?_name {name : String} (h : '@' ∉ name.toList) :
    ofShorthand? name = some (.named name) := by
  have hsign : ¬name.toList.contains '@' = true := by simpa using h
  rw [ofShorthand?, if_neg hsign]

/-- Whether the entries of a mapping write a type in its long form that a text writes in its short
form. Other entries are passed over. -/
inductive HasShorthand (entries : Entries) : String → Prop where
  /-- A symbol whose parts can be told apart. -/
  | symbol {s : Symbol} (h : s.IsWritable) (hkind : entries.field? "kind" = some (.text "symbol"))
    (hname : entries.field? "display_name" = some (.text s.name))
    (hmodule : entries.field? "module_path" = some (.text s.module)) : HasShorthand entries s.spec
  /-- A bare name that is no written form of a symbol. -/
  | named {name : String} (h : '@' ∉ name.toList)
    (hkind : entries.field? "kind" = some (.text "named"))
    (hname : entries.field? "name" = some (.text name)) : HasShorthand entries name

/-- Both forms of a type are read alike, wherever they lie. -/
theorem HasShorthand.ofFields_eq {entries : Entries} {s : String} (h : HasShorthand entries s)
    (n : Nesting) : ofFields n (fieldsOf entries) = ofText n s := by
  cases h with
  | symbol h hkind hname hmodule =>
    simp only [ofFields, ofKind?, TypeField.required, TypeField.find?_fieldsOf, hkind, hname,
      hmodule, ofText, ofShorthand?_spec h]
    rfl
  | named h hkind hname =>
    simp only [ofFields, ofKind?, TypeField.required, TypeField.find?_fieldsOf, hkind, hname,
      ofText, ofShorthand?_name h]
    rfl

/-- The short form stands for a type, and the long one is read as this type. -/
theorem HasShorthand.exists_ofValue_eq {entries : Entries} {s : String}
    (h : HasShorthand entries s) :
    ∃ t, ofShorthand? s = some t ∧ ofValue (.mapping entries) = .valid t := by
  obtain ⟨t, ht⟩ : ∃ t, ofShorthand? s = some t := by
    cases h with
    | symbol h _ _ _ => exact ⟨_, ofShorthand?_spec h⟩
    | named h _ _ => exact ⟨_, ofShorthand?_name h⟩
  refine ⟨t, ht, ?_⟩
  rw [ofValue, ofValueAt, h.ofFields_eq, ofText, ht]
  rfl

end TypeExpr

/-! ## Documents with short forms -/

namespace Part

/-- Whether a type may stand in the place of a part in its short form. -/
inductive TakesShort : Part → Prop where
  /-- As a type. -/
  | type : TakesShort .type
  /-- As an argument that stands for one. -/
  | argument : TakesShort (.argument true)

/-- A value, read as a part, in which some types are replaced by their short forms, and the value
with the replacements. Each change is given with what was there before and what is after it. -/
inductive Shortened : Part → Value → Value → Prop where
  /-- Nothing is replaced. -/
  | same (p : Part) (v : Value) : Shortened p v v
  /-- The value is a type that is replaced. -/
  | short {p : Part} {entries : Entries} {s : String} (hp : p.TakesShort)
    (h : TypeExpr.HasShorthand entries s) : Shortened p (.mapping entries) (.text s)
  /-- Types in the fields of a mapping are replaced. -/
  | mapping {p : Part} (changes : List (Scalar × Value × Value))
    (h : ∀ c ∈ changes, Shortened (p.ofKey (changes.map fun c => (c.1, c.2.1)) c.1) c.2.1 c.2.2) :
    Shortened p (.mapping (changes.map fun c => (c.1, c.2.1)))
      (.mapping (changes.map fun c => (c.1, c.2.2)))
  /-- Types in the items of a list are replaced. -/
  | list {item : Nat → Part} (changes : List (Value × Value))
    (h : ∀ i c, changes[i]? = some c → Shortened (item i) c.1 c.2) :
    Shortened (.list item) (.list (changes.map Prod.fst)) (.list (changes.map Prod.snd))

/-- Types in the only item of a list are replaced. -/
theorem Shortened.singleton {item : Nat → Part} {v w : Value} (h : Shortened (item 0) v w) :
    Shortened (.list item) (.list [v]) (.list [w]) :=
  .list [(v, w)] fun i c hc => by
    cases i with
    | zero =>
      cases hc
      exact h
    | succ i => cases hc

/-- Both forms of a type are read alike where the short one may stand. -/
theorem readAlike_short {p : Part} {entries : Entries} {s : String} (hp : p.TakesShort)
    (h : TypeExpr.HasShorthand entries s) : p.ReadAlike (.mapping entries) (.text s) := by
  cases hp with
  | type =>
    refine ⟨iff_of_false nofun nofun, fun n => ?_⟩
    rw [TypeExpr.ofValueAt, TypeExpr.ofValueAt, h.ofFields_eq]
  | argument =>
    obtain ⟨t, ht, hread⟩ := h.exists_ofValue_eq
    have hlong : Argument.ofValue (.mapping entries) = .valid (.type t) := by
      simp only [Argument.ofValue, hread]
    have hexpanded : (Argument.text s).expanded = .type t := by rw [Argument.expanded, ht]; rfl
    rw [ReadAlike, hlong]
    exact .of_valid hexpanded

/-- No type stands in the fields of a part that lists none. -/
theorem ofKey_eq_other {p : Part} {entries : Entries} (h : p.fields entries = []) (key : Scalar) :
    p.ofKey entries key = .other := by
  cases key with
  | text name => rw [ofKey, h]; rfl
  | null | bool _ | int _ | float _ | moment _ => rfl

/-- Mappings whose values are read alike, each as the part of its key, have fields that are read
alike. -/
theorem fieldsAlike_of_changes {p : Part} {entries : Entries}
    {changes : List (Scalar × Value × Value)}
    (h : ∀ c ∈ changes, (p.ofKey entries c.1).ReadAlike c.2.1 c.2.2) :
    FieldsAlike (p.fields entries) (changes.map fun c => (c.1, c.2.1))
      (changes.map fun c => (c.1, c.2.2)) := by
  intro name
  have hfind : ∀ side : Value × Value → Value,
      Entries.field? (changes.map fun c => (c.1, side c.2)) name =
        (changes.find? fun c => c.1 == .text name).map fun c => side c.2 := fun side => by
    rw [Entries.field?, List.find?_map, Option.map_map]
    rfl
  rw [hfind Prod.fst, hfind Prod.snd]
  cases hchange : changes.find? fun c => c.1 == .text name with
  | none => exact .none
  | some c =>
    have hkey : c.1 = .text name := by simpa using List.find?_some hchange
    have halike := h c (List.mem_of_find?_eq_some hchange)
    rw [hkey] at halike
    exact .some halike

/-- Mappings whose fields are read alike are read alike. -/
theorem readAlike_mapping {p : Part} {changes : List (Scalar × Value × Value)}
    (h : ∀ c ∈ changes,
      (p.ofKey (changes.map fun c => (c.1, c.2.1)) c.1).ReadAlike c.2.1 c.2.2) :
    p.ReadAlike (.mapping (changes.map fun c => (c.1, c.2.1)))
      (.mapping (changes.map fun c => (c.1, c.2.2))) := by
  have hfields := fieldsAlike_of_changes h
  -- A part without fields of its own has only values that are the same.
  have hsame : p.fields (changes.map fun c => (c.1, c.2.1)) = [] →
      changes.map (fun c => (c.1, c.2.2)) = changes.map fun c => (c.1, c.2.1) := fun hnone => by
    refine List.map_congr_left fun c hc => ?_
    have hvalue := h c hc
    rw [ofKey_eq_other hnone] at hvalue
    exact Prod.ext rfl hvalue
  cases p with
  | other => exact congrArg Value.mapping (hsame rfl)
  | list item => exact .inl (congrArg Value.mapping (hsame rfl))
  | type => exact readAlike_type_mapping hfields
  | argument bound => exact readAlike_argument_mapping bound hfields
  | block => exact ⟨iff_of_false nofun nofun, CodeBlock.follows_ofEntries hfields⟩
  | property => exact Property.follows_ofEntries hfields
  | parameter => exact Parameter.ofEntries_eq hfields
  | function => exact Function.follows_ofEntries hfields
  | member => exact Member.follows_ofValue hfields
  | file => exact FileModel.follows_ofEntries hfields

/-- A document with short forms is read like the one before the replacements. -/
theorem Shortened.readAlike {p : Part} {v w : Value} (h : Shortened p v w) : p.ReadAlike v w := by
  induction h with
  | same p v => exact p.readAlike_refl v
  | short hp h => exact readAlike_short hp h
  | mapping changes _ ih => exact readAlike_mapping ih
  | list changes _ ih => exact .inr ⟨changes, rfl, rfl, ih⟩

end Part

/-! ## Files -/

/-- A symbol whose parts can be told apart is read back from its written form. And if a file is read
from a document, one is read from each document in which some of its types are replaced by their
short forms, and it is assembled alike, with the same content, imports and renames or the same
fault, under all settings and wherever the same side information is found for both. -/
theorem assemble_of_shortened :
    (∀ s : Symbol, s.IsWritable → Symbol.parse? s.spec = some s) ∧
      ∀ {doc doc' : Value} {f : FileModel}, Part.Shortened .file doc doc' →
        FileModel.ofValue doc = .valid f → ∃ f', FileModel.ofValue doc' = .valid f' ∧
          ∀ (config : AssemblyConfig) (loader : MetadataLoader), loader f' = loader f →
            assemble config loader f' = assemble config loader f := by
  refine ⟨fun s => Symbol.parse?_spec, fun {doc doc' f} hshort hread => ?_⟩
  obtain ⟨f', hread', hexpanded⟩ := hshort.readAlike f hread
  exact ⟨f', hread', fun config loader hloader =>
    assemble_eq_of_expanded_eq hexpanded hloader config⟩

/-- A bare name in an array, and a symbol as the argument of a code block, in both forms. -/
theorem assemble_of_shortened_nested :
    let named : Value := .object [("kind", .text "named"), ("name", .text "T")]
    let item : Value := .object [("kind", .text "symbol"), ("display_name", .text "Item"),
      ("module_path", .text "./item")]
    let array (element : Value) : Value := .object [("kind", .text "array"), ("element", element)]
    let block (arg : Value) : Value := .object [("format", .text "%T"), ("args", .list [arg])]
    let member (element arg : Value) : Value := .object
      [("kind", .text "property"), ("name", .text "p"), ("type", array element),
        ("initializer", block arg)]
    let doc (element arg : Value) : Value := .object
      [("path", .text "a.ts"), ("members", .list [member element arg])]
    let long := doc named item
    let short := doc (.text "T") (.text "Item@./item")
    Part.Shortened .file long short ∧ ∃ f, FileModel.ofValue long = .valid f ∧
      ∃ f', FileModel.ofValue short = .valid f' ∧
        ∀ config, assemble config .nothing f' = assemble config .nothing f := by
  intro named item array block member doc long short
  -- From the places of the two types outwards.
  have htype : Part.Shortened .type (array named) (array (.text "T")) :=
    .mapping [(.text "kind", _, _), (.text "element", named, .text "T")] (by
      simp only [List.forall_mem_cons]
      exact ⟨.same _ _, .short .type (.named (by decide) rfl rfl), nofun⟩)
  have hslot : (Format.placeholders "%T")[0]? == some .type := by decide +kernel
  have hitem : Part.Shortened (.argument ((Format.placeholders "%T")[0]? == some .type)) item
      (.text "Item@./item") := by
    rw [hslot]
    have hwritable : Symbol.IsWritable ⟨"Item", "./item"⟩ := ⟨by decide, by decide, by decide⟩
    exact .short .argument (.symbol hwritable rfl rfl rfl)
  have hblock : Part.Shortened .block (block item) (block (.text "Item@./item")) :=
    .mapping [(.text "format", _, _), (.text "args", .list [item], .list [.text "Item@./item"])]
      (by
        simp only [List.forall_mem_cons]
        exact ⟨.same _ _, .singleton hitem, nofun⟩)
  have hmember : Part.Shortened .member (member named item)
      (member (.text "T") (.text "Item@./item")) :=
    .mapping [(.text "kind", _, _), (.text "name", _, _),
      (.text "type", array named, array (.text "T")),
      (.text "initializer", block item, block (.text "Item@./item"))] (by
        simp only [List.forall_mem_cons]
        exact ⟨.same _ _, .same _ _, htype, hblock, nofun⟩)
  have hshort : Part.Shortened .file long short :=
    .mapping [(.text "path", _, _), (.text "members", .list [member named item],
      .list [member (.text "T") (.text "Item@./item")])] (by
        simp only [List.forall_mem_cons]
        exact ⟨.same _ _, .singleton hmember, nofun⟩)
  obtain ⟨f', hread', hassembled⟩ := assemble_of_shortened.2 hshort rfl
  exact ⟨hshort, _, rfl, f', hread', fun config => hassembled config .nothing rfl⟩

end ModuleAssembly
