import ModuleAssembly.Proofs.Generation.References
import ModuleAssembly.Proofs.Generation.TypeNames

/-!
# Names that a generated file needs

A file can be generated exactly if the type map knows every name that it needs
(`Generation.unknown_of_file`, `Generation.find?_ne_none_of_needs`): the names that fields give as
their types, of all messages that are neither map entries nor inside one, and the names of what
methods take and return. A field that names a map entry of its own message needs what the value of
the entry gives instead. Numbers and the like need no name, nor does a time stamp that becomes a
date.
-/

namespace ModuleAssembly

open Descriptor (Field FieldType File Message Method Service)

namespace Generation

open TypeMap (DeclaredType Scope fullNames typesOf)

/-! ## What is needed -/

/-- The map entry among the messages in a message that has a full name, the last if there are
several. -/
def ownEntry? (f : File) (d : DeclaredType) (m : Message) (fullName : String) : Option Message :=
  m.nested.reverse.find? fun e => e.mapEntry && d.fullName f ++ "." ++ e.name == fullName

/-- The field that decides what a field of a message holds. -/
inductive Decides (f : File) (d : DeclaredType) (m : Message) (g : Field) : Field → Prop
  /-- A field that names no map entry of the message, by itself. -/
  | plain (h : ownEntry? f d m g.typeName = none) : Decides f d m g g
  /-- The value of a map entry that the field names. -/
  | value {e : Message} {key value : Field} (h : ownEntry? f d m g.typeName = some e)
      (hfields : e.fields = [key, value]) : Decides f d m g value

/-- Whether the type of a field is looked up by its name: it is that of a message, a group or an
enumeration, and no time stamp that becomes a date. -/
def IsLookedUp (options : GenerationOptions) (g : Field) : Prop :=
  isNamed g.type = true ∧ ¬(g.typeName = timestamp ∧ options.useDate = true)

/-- The full names that are looked up to generate a file. -/
inductive Needs (options : GenerationOptions) (f : File) : String → Prop
  /-- That of a field. -/
  | field {d : DeclaredType} {m : Message} {g t : Field} (hd : d ∈ typesOf f)
      (hgenerated : d.isGenerated = true) (hm : d.body = .message m) (hg : g ∈ m.fields)
      (hdecides : Decides f d m g t) (h : IsLookedUp options t) : Needs options f t.typeName
  /-- What a method takes. -/
  | input {s : Service} {m : Method} (hs : s ∈ f.services) (hm : m ∈ s.methods) :
    Needs options f m.inputType
  /-- What a method returns. -/
  | output {s : Service} {m : Method} (hs : s ∈ f.services) (hm : m ∈ s.methods) :
    Needs options f m.outputType

/-! ## Fields -/

variable {types : TypeMap} {options : GenerationOptions} {f : File}

/-- The map entries in a message are found by their full names, the last of each name. -/
theorem lookup_mapEntries (d : DeclaredType) (m : Message) (fullName : String) :
    (mapEntries (d.fullName f) m.nested).lookup fullName = ownEntry? f d m fullName := by
  -- The last of several pairs with one key counts, so the entries are searched from the end.
  rw [mapEntries, Association.lookup_ofList, ← List.map_reverse, Association.lookup_map,
    Option.map_id', ← List.filter_reverse, List.find?_filter, ownEntry?]
  simp only [Bool.decide_and, Bool.decide_eq_true]

/-- A name is not found exactly if it has no symbol. -/
theorem lookup_eq_error {name : String} {fault : Fault} (h : lookup types name = .error fault) :
    types.find? name = none ∧ fault = .unknownType name := by
  unfold lookup at h
  split at h
  · cases h
  · next hnone => exact ⟨hnone, (Except.error.inj h).symm⟩

/-- The type of a field is missing only if it is looked up and its name is not known. -/
theorem fieldType_eq_error {g : Field} {fault : Fault}
    (h : fieldType types options g = .error fault) :
    IsLookedUp options g ∧ types.find? g.typeName = none ∧ fault = .unknownType g.typeName := by
  unfold fieldType at h
  split at h
  · cases h
  · next hscalar =>
    split at h
    · cases h
    · next hlong =>
      split at h
      · cases h
      · next hdate =>
        have hnamed := isNamed_of_scalarName?_eq_none hscalar (Bool.eq_false_iff.2 hlong)
        exact ⟨⟨hnamed, hdate⟩, lookup_eq_error (Fault.eq_error_of_map_eq_error h)⟩

/-- A field whose type is looked up has none if its name is not known. -/
theorem find?_ne_none_of_fieldType {g : Field} {t : TypeExpr} (hg : IsLookedUp options g)
    (h : fieldType types options g = .ok t) : types.find? g.typeName ≠ none := by
  obtain ⟨hnamed, hdate⟩ := hg
  have hkinds : scalarName? g.type = none ∧ isLong g.type = false := by
    revert hnamed
    cases g.type <;> decide
  unfold fieldType at h
  rw [hkinds.1, hkinds.2, if_neg Bool.false_ne_true, if_neg hdate] at h
  obtain ⟨s, hlookup, -⟩ := Fault.exists_of_map_eq_ok h
  rw [find?_of_lookup hlookup]
  exact Option.some_ne_none s

section Messages

variable {d : DeclaredType} {m : Message} {g t : Field}

/-- If the map entries in a message have a key and a value, each of its fields is decided. -/
theorem exists_decides (hpairs : ∀ e ∈ m.nested, e.mapEntry = true → e.fields.length = 2) :
    ∃ t, Decides f d m g t := by
  cases hentry : ownEntry? f d m g.typeName with
  | none => exact ⟨g, .plain hentry⟩
  | some e =>
    have hmem := List.mem_reverse.1 (List.mem_of_find?_eq_some hentry)
    have hmap := List.find?_some hentry
    rw [Bool.and_eq_true] at hmap
    obtain ⟨key, value, hfields⟩ := List.length_eq_two.1 (hpairs e hmem hmap.1)
    exact ⟨value, .value hentry hfields⟩

/-- What decides a field is what the slot of the field is typed by. -/
theorem exists_slot_of_decides (h : Decides f d m g t) :
    ∃ found, slot (mapEntries (d.fullName f) m.nested) g = .ok found ∧ found.typed = t := by
  cases h with
  | plain hentry =>
    refine ⟨.plain g, ?_, rfl⟩
    rw [slot, lookup_mapEntries, hentry]
  | @value e key _ hentry hfields =>
    refine ⟨.map g key t, ?_, rfl⟩
    rw [slot, lookup_mapEntries, hentry]
    simp only [hfields]

/-- A field has no property only if the field that decides it has no type. -/
theorem fieldProperty_eq_error (hdecides : Decides f d m g t) {fault : Fault}
    (h : fieldProperty types options (mapEntries (d.fullName f) m.nested) g = .error fault) :
    fieldType types options t = .error fault := by
  obtain ⟨found, hslot, rfl⟩ := exists_slot_of_decides hdecides
  rw [fieldProperty, hslot] at h
  change slotProperty types options found = .error fault at h
  cases found with
  | plain g =>
    rcases Fault.cases_of_bind_eq_error h with htype | ⟨type, -, hproperty⟩
    · exact htype
    · cases hproperty
  | map g key value =>
    rcases Fault.cases_of_bind_eq_error h with htype | ⟨type, -, hproperty⟩
    · exact htype
    · cases hproperty

/-- If a field has a property, the field that decides it has a type. -/
theorem exists_fieldType_of_fieldProperty (hdecides : Decides f d m g t) {p : Property}
    (h : fieldProperty types options (mapEntries (d.fullName f) m.nested) g = .ok p) :
    ∃ type, fieldType types options t = .ok type := by
  obtain ⟨found, hslot, rfl⟩ := exists_slot_of_decides hdecides
  rw [fieldProperty, hslot] at h
  change slotProperty types options found = .ok p at h
  obtain ⟨type, htype, -⟩ := exists_fieldType_of_slotProperty h
  exact ⟨type, htype⟩

end Messages

/-! ## Files -/

/-- A type that is not made needs a name that is not known. -/
theorem exists_needs_of_declare (hpairs : ∀ d ∈ typesOf f, d.isPair = true)
    {d : DeclaredType} (hd : d ∈ typesOf f) (hgenerated : d.isGenerated = true) {fault : Fault}
    (h : declare types options f d = .error fault) :
    ∃ name, Needs options f name ∧ types.find? name = none ∧ fault = .unknownType name := by
  unfold declare at h
  split at h
  · next m hbody =>
    -- The map entries in the message are types of the file as well.
    have hentries : ∀ e ∈ m.nested, e.mapEntry = true → e.fields.length = 2 := by
      intro e he hmap
      have hown : ⟨d.place, .message m⟩ ∈ typesOf f := by rwa [← hbody]
      obtain ⟨i, hentry⟩ := TypeMap.exists_mem_typesOf_of_nested hown he
      simpa [DeclaredType.isPair, hmap] using hpairs _ hentry
    rcases Fault.cases_of_bind_eq_error h with hfields | ⟨properties, -, hinterface⟩
    · obtain ⟨g, hg, hproperty⟩ := Fault.exists_of_mapM_eq_error hfields
      rw [← DeclaredType.fullName_of_body hbody] at hproperty
      obtain ⟨t, hdecides⟩ := exists_decides (f := f) (d := d) (g := g) hentries
      obtain ⟨hlooked, hunknown, rfl⟩ :=
        fieldType_eq_error (fieldProperty_eq_error hdecides hproperty)
      exact ⟨t.typeName, .field hd hgenerated hbody hg hdecides hlooked, hunknown, rfl⟩
    · cases hinterface
  · cases h

/-- A service that is not made needs a name that is not known. -/
theorem exists_needs_of_service {s : Service} (hs : s ∈ f.services) {fault : Fault}
    (h : service types options s = .error fault) :
    ∃ name, Needs options f name ∧ types.find? name = none ∧ fault = .unknownType name := by
  rcases Fault.cases_of_bind_eq_error h with hmethods | ⟨methods, -, hinterface⟩
  · obtain ⟨m, hm, hmethod⟩ := Fault.exists_of_mapM_eq_error hmethods
    rcases Fault.cases_of_bind_eq_error hmethod with houtput | ⟨output, -, hrest⟩
    · exact ⟨m.outputType, .output hs hm, lookup_eq_error houtput⟩
    · rcases Fault.cases_of_bind_eq_error hrest with hinput | ⟨input, -, hresult⟩
      · exact ⟨m.inputType, .input hs hm, lookup_eq_error hinput⟩
      · cases hresult
  · cases hinterface

/-- A file whose map entries have a key and a value cannot be generated only because it needs a name
that is not known, and this is the fault. -/
theorem unknown_of_file (hpairs : ∀ d ∈ typesOf f, d.isPair = true) {fault : Fault}
    (h : file types options f = .error fault) :
    ∃ name, Needs options f name ∧ types.find? name = none ∧ fault = .unknownType name := by
  rcases Fault.cases_of_bind_eq_error h with hmessages | ⟨inner, -, hrest⟩
  · have hdeclared : declareAll types options f (typesOf f) = .error fault := by
      rw [declareAll_typesOf, hmessages]
      rfl
    obtain ⟨d, hd, hdeclare⟩ := Fault.exists_of_mapM_eq_error hdeclared
    obtain ⟨hmem, hgenerated⟩ := List.mem_filter.1 hd
    exact exists_needs_of_declare hpairs hmem hgenerated hdeclare
  · rcases Fault.cases_of_bind_eq_error hrest with hservices | ⟨services, -, hmodel⟩
    · obtain ⟨s, hs, hservice⟩ := Fault.exists_of_mapM_eq_error hservices
      exact exists_needs_of_service hs hservice
    · cases hmodel

/-- If a file is generated, every name that it needs is known. -/
theorem find?_ne_none_of_needs {model : FileModel} (h : file types options f = .ok model)
    {name : String} (hneeds : Needs options f name) : types.find? name ≠ none := by
  obtain ⟨inner, services, hfrom⟩ := exists_generatedFrom h
  have hknown : ∀ {s : Service} {m : Method}, s ∈ f.services → m ∈ s.methods →
      types.find? m.inputType ≠ none ∧ types.find? m.outputType ≠ none := by
    intro s m hs hm
    obtain ⟨x, -, hservice⟩ := Fault.exists_result_of_mem hfrom.services_eq hs
    obtain ⟨methods, hmethods, -⟩ := Fault.exists_of_bind_eq_ok hservice
    obtain ⟨result, -, hmethod⟩ := Fault.exists_result_of_mem hmethods hm
    obtain ⟨output, houtput, hrest⟩ := Fault.exists_of_bind_eq_ok hmethod
    obtain ⟨input, hinput, -⟩ := Fault.exists_of_bind_eq_ok hrest
    rw [find?_of_lookup hinput, find?_of_lookup houtput]
    exact ⟨Option.some_ne_none input, Option.some_ne_none output⟩
  cases hneeds with
  | @field d m g t hd hgenerated hbody hg hdecides hlooked =>
    obtain ⟨x, -, hdeclare⟩ := hfrom.exists_declare_of_mem hd hgenerated
    rw [declare, hbody] at hdeclare
    obtain ⟨properties, hproperties, -⟩ := Fault.exists_of_bind_eq_ok hdeclare
    obtain ⟨p, -, hproperty⟩ := Fault.exists_result_of_mem hproperties hg
    rw [← DeclaredType.fullName_of_body hbody] at hproperty
    obtain ⟨type, htype⟩ := exists_fieldType_of_fieldProperty hdecides hproperty
    exact find?_ne_none_of_fieldType hlooked htype
  | input hs hm => exact (hknown hs hm).1
  | output hs hm => exact (hknown hs hm).2

end Generation

/-- The type map of files knows the full names that they declare. -/
theorem TypeMap.find?_ofFiles_eq_none {files : List File} {name : String} :
    (ofFiles files).find? name = none ↔ name ∉ fullNames files := by
  rw [← Option.not_isSome_iff_eq_none, ← keys_flatMap_fileEntries]
  exact not_congr (Association.isSome_lookup_ofList _ _)

end ModuleAssembly
