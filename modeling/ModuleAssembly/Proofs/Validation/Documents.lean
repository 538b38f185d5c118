import ModuleAssembly.Proofs.Validation.Types

/-!
# Files and their documents

A file that is read from a document is read back from its own document
(`FileModel.readBack`). The document has all fields, and each field is read back: a text
or a truth value as it is, and a part because what was read as such a part is read back. So the
readers of the parts are followed once more, with what their results are read back from.
-/

namespace ModuleAssembly

/-! ## Fields of documents -/

/-- The entries of a mapping; another value has none. -/
def Value.entries : Value → Entries
  | .mapping entries => entries
  | _ => []

/-- A value that may be missing is read back, if what is there is and is written as something. -/
theorem Value.readOptional_optionalValue {α : Type} {read : Value → Validated α}
    {toValue : α → Value} {o : Option α}
    (h : ∀ a ∈ o.toList, toValue a ≠ .null ∧ read (toValue a) = .valid a) :
    (optionalValue toValue o).readOptional read = .valid o := by
  cases o with
  | none => rfl
  | some a =>
    obtain ⟨hnull, hread⟩ := h a (Option.mem_toList.2 rfl)
    rw [optionalValue, readOptional, hread]
    · rfl
    · exact hnull

namespace Entries

variable {α : Type} {entries : Entries} {name : String} {read : Value → Validated α}
  {toValue : α → Value}

/-- A field that may be missing is read back. -/
theorem optional_eq (o : Option α) (hfield : entries.field? name = some (optionalValue toValue o))
    (h : ∀ a ∈ o.toList, toValue a ≠ .null ∧ read (toValue a) = .valid a) :
    entries.optional name read = .valid o := by
  rw [optional, withDefault, hfield, Option.elim_some, Value.readOptional_optionalValue h]
  rfl

/-- So is a text that may be missing. -/
theorem optional_text_eq (o : Option String)
    (hfield : entries.field? name = some (optionalValue .text o)) :
    entries.optional name Value.readText = .valid o :=
  optional_eq o hfield fun _ _ => ⟨nofun, rfl⟩

/-- So is a field with a list. -/
theorem list_eq (xs : List α) (hfield : entries.field? name = some (.list (xs.map toValue)))
    (h : ∀ x ∈ xs, read (toValue x) = .valid x) : entries.list name read = .valid xs := by
  rw [list, withDefault, hfield, Option.elim_some, Value.readList_map h]
  rfl

end Entries

/-! ## Code blocks -/

/-- The long form of a type is a mapping. -/
theorem TypeExpr.exists_toValue_eq (t : TypeExpr) : ∃ entries, t.toValue = .mapping entries := by
  cases t with
  | symbol _ | named _ | union _ _ | array _ | generic _ _ => exact ⟨_, rfl⟩

/-- So it is not the value of what is missing. -/
theorem TypeExpr.toValue_ne_null (t : TypeExpr) : t.toValue ≠ .null := by
  obtain ⟨entries, hentries⟩ := t.exists_toValue_eq
  rw [hentries]
  nofun

namespace Argument

/-- An argument that is a type is read back if the type is. -/
theorem ofValue_type {t : TypeExpr} (h : TypeExpr.ofValue t.toValue = .valid t) :
    ofValue t.toValue = .valid (.type t) := by
  obtain ⟨entries, hentries⟩ := t.exists_toValue_eq
  rw [hentries] at h ⊢
  rw [ofValue, h]
  all_goals nofun

/-- What is read as an argument is read back: a scalar as it is, and a type as a type. -/
theorem readBack (v : Value) : (ofValue v).Satisfies fun a => ofValue a.toValue = .valid a := by
  unfold ofValue
  split
  · exact Validated.satisfies_valid rfl
  · exact Validated.satisfies_valid rfl
  · exact Validated.satisfies_valid rfl
  · exact Validated.satisfies_valid rfl
  · split
    · next htype => exact Validated.satisfies_valid (ofValue_type (TypeExpr.readBack v _ htype))
    · exact Validated.satisfies_invalid _ _

end Argument

namespace CodeBlock

/-- A code block that satisfies what is asked of it is read back if its arguments are. -/
theorem ofValue_toValue {b : CodeBlock} (hcheck : b.check = .ok ())
    (hargs : ∀ a ∈ b.args, Argument.ofValue a.toValue = .valid a) :
    ofValue b.toValue = .valid b := by
  have hread : ofValue b.toValue = ofEntries b.toValue.entries := rfl
  have hchecked : checked b = .valid b := by rw [checked, hcheck]
  rw [hread, ofEntries, Entries.list_eq b.args rfl hargs]
  exact hchecked

/-- What is read as a code block is read back. -/
theorem readBack (v : Value) : (ofValue v).Satisfies fun b => ofValue b.toValue = .valid b := by
  refine Value.satisfies_readModel (fun entries => ?_) v
  have hargs := entries.satisfies_list "args" Argument.readBack
  have hblock : ((fun _ format args => { format, args : CodeBlock }) <$>
      entries.checkKind "code_block" <*> entries.required "format" Value.readText <*>
      entries.list "args" Argument.ofValue).Satisfies
        fun b => ∀ a ∈ b.args, Argument.ofValue a.toValue = .valid a :=
    .seq (.any (.start fun _ _ _ hargs => hargs)) hargs
  refine hblock.andThen fun b hargs => ?_
  unfold checked
  split
  · next hcheck => exact Validated.satisfies_valid (ofValue_toValue hcheck hargs)
  · exact Validated.satisfies_invalid _ _

end CodeBlock

/-! ## Parts of declarations -/

namespace Entries

variable {entries : Entries} {name : String}

/-- A field with a type that may be missing is read back if the type is. -/
theorem optional_type_eq (o : Option TypeExpr)
    (hfield : entries.field? name = some (optionalValue TypeExpr.toValue o))
    (h : ∀ t ∈ o.toList, TypeExpr.ofValue t.toValue = .valid t) :
    entries.optional name TypeExpr.ofValue = .valid o :=
  optional_eq o hfield fun t ht => ⟨t.toValue_ne_null, h t ht⟩

/-- A field with a code block that may be missing is read back if the block is. -/
theorem optional_code_eq (o : Option CodeBlock)
    (hfield : entries.field? name = some (optionalValue CodeBlock.toValue o))
    (h : ∀ b ∈ o.toList, CodeBlock.ofValue b.toValue = .valid b) :
    entries.optional name CodeBlock.ofValue = .valid o :=
  optional_eq o hfield fun b hb => ⟨nofun, h b hb⟩

end Entries

namespace Property

/-- A property is read back if its type and its first value are. -/
theorem ofValue_toValue {p : Property}
    (htype : ∀ t ∈ p.type.toList, TypeExpr.ofValue t.toValue = .valid t)
    (hinitial : ∀ b ∈ p.initial.toList, CodeBlock.ofValue b.toValue = .valid b) :
    ofValue p.toValue = .valid p := by
  have hread : ofValue p.toValue = ofEntries p.toValue.entries := rfl
  rw [hread, ofEntries, Entries.optional_type_eq p.type rfl htype,
    Entries.optional_code_eq p.initial rfl hinitial, Entries.optional_text_eq p.doc rfl]
  rfl

/-- What is read as a property is read back. -/
theorem readBack (v : Value) : (ofValue v).Satisfies fun p => ofValue p.toValue = .valid p := by
  refine Value.satisfies_readModel (fun entries => ?_) v
  have htype := entries.satisfies_optional "type" TypeExpr.readBack
  have hinitial := entries.satisfies_optional "initializer" CodeBlock.readBack
  refine .any (.any (.seq (.any (.any (.any (.seq (.any (.start ?_)) htype)))) hinitial))
  exact fun _ _ type htype _ _ _ initial hinitial _ _ => ofValue_toValue htype hinitial

end Property

namespace Parameter

/-- A parameter is read back if its type is. -/
theorem ofValue_toValue {p : Parameter}
    (htype : ∀ t ∈ p.type.toList, TypeExpr.ofValue t.toValue = .valid t) :
    ofValue p.toValue = .valid p := by
  have hread : ofValue p.toValue = ofEntries p.toValue.entries := rfl
  rw [hread, ofEntries, Entries.optional_type_eq p.type rfl htype,
    Entries.optional_text_eq p.default rfl]
  rfl

/-- What is read as a parameter is read back. -/
theorem readBack (v : Value) : (ofValue v).Satisfies fun p => ofValue p.toValue = .valid p := by
  refine Value.satisfies_readModel (fun entries => ?_) v
  have htype := entries.satisfies_optional "type" TypeExpr.readBack
  refine .any (.any (.seq (.start ?_) htype))
  exact fun _ type htype _ _ => ofValue_toValue htype

end Parameter

namespace Function

/-- A function is read back if its parameters, its result type and its body are. -/
theorem ofValue_toValue {f : Function}
    (hparameters : ∀ p ∈ f.parameters, Parameter.ofValue p.toValue = .valid p)
    (hresult : ∀ t ∈ f.result.toList, TypeExpr.ofValue t.toValue = .valid t)
    (hbody : ∀ b ∈ f.body.toList, CodeBlock.ofValue b.toValue = .valid b) :
    ofValue f.toValue = .valid f := by
  have hread : ofValue f.toValue = ofEntries f.toValue.entries := rfl
  rw [hread, ofEntries, Entries.list_eq f.parameters rfl hparameters,
    Entries.optional_type_eq f.result rfl hresult, Entries.optional_code_eq f.body rfl hbody,
    Entries.optional_text_eq f.doc rfl]
  rfl

/-- What is read as a function is read back. -/
theorem readBack (v : Value) : (ofValue v).Satisfies fun f => ofValue f.toValue = .valid f := by
  refine Value.satisfies_readModel (fun entries => ?_) v
  have hparameters := entries.satisfies_list "parameters" Parameter.readBack
  have hresult := entries.satisfies_optional "return_type" TypeExpr.readBack
  have hbody := entries.satisfies_optional "body" CodeBlock.readBack
  refine .any (.any (.any (.seq (.seq (.seq (.any (.start ?_)) hparameters) hresult) hbody)))
  exact fun _ _ _ hparameters _ hresult _ hbody _ _ _ => ofValue_toValue hparameters hresult hbody

end Function

/-- The value of a constant is read back. -/
theorem ConstantValue.ofValue_toValue (c : ConstantValue) : ofValue c.toValue = .valid c := by
  cases c with
  | int n => rfl
  | text s => rfl

/-- So is the constant. -/
theorem Constant.ofValue_toValue (c : Constant) : ofValue c.toValue = .valid c := by
  have hread : ofValue c.toValue = ofEntries c.toValue.entries := rfl
  have hvalue : ∀ value ∈ c.value.toList, value.toValue ≠ .null ∧
      ConstantValue.ofValue value.toValue = .valid value := fun value _ => by
    refine ⟨?_, value.ofValue_toValue⟩
    cases value with
    | int _ | text _ => nofun
  rw [hread, ofEntries, Entries.optional_eq c.value rfl hvalue, Entries.optional_text_eq c.doc rfl]
  rfl

/-! ## Declarations -/

namespace Interface

/-- An interface is read back if its bases, its properties and its methods are. -/
theorem ofEntries_toValue {d : Interface}
    (hbases : ∀ t ∈ d.bases, TypeExpr.ofValue t.toValue = .valid t)
    (hproperties : ∀ p ∈ d.properties, Property.ofValue p.toValue = .valid p)
    (hmethods : ∀ f ∈ d.methods, Function.ofValue f.toValue = .valid f) :
    ofEntries d.toValue.entries = .valid d := by
  rw [ofEntries, Entries.list_eq d.bases rfl hbases, Entries.list_eq d.properties rfl hproperties,
    Entries.list_eq d.methods rfl hmethods, Entries.optional_text_eq d.doc rfl]
  rfl

/-- What is read as an interface is read back. -/
theorem readBack (entries : Entries) :
    (ofEntries entries).Satisfies fun d => ofEntries d.toValue.entries = .valid d := by
  have hbases := entries.satisfies_list "extends" TypeExpr.readBack
  have hproperties := entries.satisfies_list "properties" Property.readBack
  have hmethods := entries.satisfies_list "methods" Function.readBack
  refine .any (.any (.seq (.seq (.seq (.any (.start ?_)) hbases) hproperties) hmethods))
  exact fun _ _ _ hbases _ hproperties _ hmethods _ _ =>
    ofEntries_toValue hbases hproperties hmethods

end Interface

namespace Class

/-- A class is read back if its base, its interfaces, its properties and its methods are. -/
theorem ofEntries_toValue {d : Class}
    (hbase : ∀ t ∈ d.base.toList, TypeExpr.ofValue t.toValue = .valid t)
    (hinterfaces : ∀ t ∈ d.interfaces, TypeExpr.ofValue t.toValue = .valid t)
    (hproperties : ∀ p ∈ d.properties, Property.ofValue p.toValue = .valid p)
    (hmethods : ∀ f ∈ d.methods, Function.ofValue f.toValue = .valid f) :
    ofEntries d.toValue.entries = .valid d := by
  rw [ofEntries, Entries.optional_type_eq d.base rfl hbase,
    Entries.list_eq d.interfaces rfl hinterfaces, Entries.list_eq d.properties rfl hproperties,
    Entries.list_eq d.methods rfl hmethods, Entries.optional_text_eq d.doc rfl]
  rfl

/-- What is read as a class is read back. -/
theorem readBack (entries : Entries) :
    (ofEntries entries).Satisfies fun d => ofEntries d.toValue.entries = .valid d := by
  have hbase := entries.satisfies_optional "extends" TypeExpr.readBack
  have hinterfaces := entries.satisfies_list "implements" TypeExpr.readBack
  have hproperties := entries.satisfies_list "properties" Property.readBack
  have hmethods := entries.satisfies_list "methods" Function.readBack
  refine .any (.any (.any (.seq (.seq (.seq (.seq (.any (.start ?_)) hbase) hinterfaces)
    hproperties) hmethods)))
  exact fun _ _ _ hbase _ hinterfaces _ hproperties _ hmethods _ _ _ =>
    ofEntries_toValue hbase hinterfaces hproperties hmethods

end Class

/-- An enumeration is read back. -/
theorem Enumeration.ofEntries_toValue (d : Enumeration) :
    ofEntries d.toValue.entries = .valid d := by
  rw [ofEntries, Entries.list_eq d.constants rfl fun c _ => c.ofValue_toValue,
    Entries.optional_text_eq d.doc rfl]
  rfl

namespace TypeAlias

/-- A type alias is read back if its type is. -/
theorem ofEntries_toValue {d : TypeAlias}
    (htype : TypeExpr.ofValue d.type.toValue = .valid d.type) :
    ofEntries d.toValue.entries = .valid d := by
  have hrequired : d.toValue.entries.required "type" TypeExpr.ofValue =
      (TypeExpr.ofValue d.type.toValue).inField "type" := rfl
  rw [ofEntries, hrequired, htype, Entries.optional_text_eq d.doc rfl]
  rfl

/-- What is read as a type alias is read back. -/
theorem readBack (entries : Entries) :
    (ofEntries entries).Satisfies fun d => ofEntries d.toValue.entries = .valid d := by
  have htype := entries.satisfies_required "type" TypeExpr.readBack
  refine .any (.any (.seq (.any (.start ?_)) htype))
  exact fun _ _ _ htype _ _ => ofEntries_toValue htype

end TypeAlias

/-! ## Members and files -/

namespace Member

/-- The document of a member is a mapping that says the kind of the member. -/
theorem exists_toValue_eq (m : Member) : ∃ entries, m.toValue = .mapping entries ∧
    Entries.field? entries "kind" = some (.text m.kind) := by
  cases m with
  | code b => exact ⟨_, rfl, rfl⟩
  | declaration d =>
    cases d with
    | interface _ | classType _ | enumeration _ | function _ | constant _ | typeAlias _ =>
      exact ⟨_, rfl, rfl⟩

/-- A member is read back if the reader of its kind reads it back. -/
theorem ofValue_toValue {m : Member} {reader : Entries → Validated Member}
    (hreader : reader? m.kind = some reader) (h : reader m.toValue.entries = .valid m) :
    ofValue m.toValue = .valid m := by
  obtain ⟨entries, hentries, hkind⟩ := m.exists_toValue_eq
  rw [hentries, Value.entries] at h
  rw [hentries, ofValue, Value.readTagged, hkind]
  dsimp only
  rw [hreader]
  dsimp only
  rw [h]
  rfl

/-- What is read as a member of a kind is read back as a member. -/
theorem readBack_reader? {kind : String} {reader : Entries → Validated Member}
    (h : reader? kind = some reader) (entries : Entries) :
    (reader entries).Satisfies fun m => ofValue m.toValue = .valid m := by
  have hany : ∀ {β : Type} (r : Validated β), r.Satisfies fun _ => True := fun r _ _ => trivial
  unfold reader? at h
  split at h
  · cases h
    exact (Interface.readBack entries).map fun d hd =>
      ofValue_toValue rfl (congrArg (Validated.map _) hd)
  · cases h
    exact (Class.readBack entries).map fun d hd =>
      ofValue_toValue rfl (congrArg (Validated.map _) hd)
  · cases h
    exact (hany _).map fun d _ => ofValue_toValue rfl
      (congrArg (Validated.map _) d.ofEntries_toValue)
  · cases h
    exact (Function.readBack (.mapping entries)).map fun d hd =>
      ofValue_toValue rfl (congrArg (Validated.map _) hd)
  · cases h
    exact (Property.readBack (.mapping entries)).map fun d hd =>
      ofValue_toValue rfl (congrArg (Validated.map _) hd)
  · cases h
    exact (TypeAlias.readBack entries).map fun d hd =>
      ofValue_toValue rfl (congrArg (Validated.map _) hd)
  · cases h
    exact (CodeBlock.readBack (.mapping entries)).map fun b hb =>
      ofValue_toValue rfl (congrArg (Validated.map _) hb)
  · cases h

/-- What is read as a member is read back. -/
theorem readBack (v : Value) : (ofValue v).Satisfies fun m => ofValue m.toValue = .valid m :=
  Value.satisfies_readTagged (fun _ _ h => readBack_reader? h) v

end Member

namespace FileModel

/-- A file is read back if its members are. -/
theorem ofValue_toValue {f : FileModel}
    (hmembers : ∀ m ∈ f.members, Member.ofValue m.toValue = .valid m) :
    ofValue f.toValue = .valid f := by
  have hread : ofValue f.toValue = ofEntries f.toValue.entries := rfl
  rw [hread, ofEntries, Entries.optional_text_eq f.comment rfl,
    Entries.list_eq f.members rfl hmembers]
  rfl

/-- What is read as a file is read back. -/
theorem readBack (v : Value) : (ofValue v).Satisfies fun f => ofValue f.toValue = .valid f := by
  refine Value.satisfies_readModel (fun entries => ?_) v
  have hmembers := entries.satisfies_list "members" Member.readBack
  refine .seq (.any (.start ?_)) hmembers
  exact fun _ _ _ hmembers => ofValue_toValue hmembers

end FileModel

end ModuleAssembly
