import ModuleAssembly.Proofs.Generation.Links
import ModuleAssembly.Proofs.Generation.Note

/-!
# The setup of the long package

A generated file has a code block exactly if a property of one of its interfaces refers to the type
of the `long` package, and this block is its last member
(`Generation.Generator.generate_setsUpLong`). The type map has only types of generated modules, so a
property refers to that type exactly if a long integer was typed for it and the options ask for the
package (`Generation.mem_symbols_fieldType`). Over all messages, at any depth, these are the fields
that decide whether there is a block (`Generation.exists_refersToLong_messages`).
-/

namespace ModuleAssembly

/-- The code blocks of a file are those among its members. -/
theorem FileModel.mem_codeBlocks {f : FileModel} {b : CodeBlock} :
    b ∈ f.codeBlocks ↔ .code b ∈ f.members := by
  rw [codeBlocks, List.mem_filterMap]
  constructor
  · rintro ⟨m, hm, hcode⟩
    cases m with
    | declaration d => cases hcode
    | code b' =>
      cases hcode
      exact hm
  · intro hb
    exact ⟨.code b, hb, rfl⟩

namespace Generation

open Descriptor (Field File Message Service)
open TypeMap (Scope)

/-- Whether a property of an interface refers to the type of the `long` package. -/
def RefersToLong (x : Declaration) : Prop :=
  ∃ i : Interface, x = .interface i ∧
    ∃ p ∈ i.properties, ∃ t, p.type = some t ∧ longSymbol ∈ t.symbols

/-- The type map of files has no type of the `long` package. -/
theorem find?_ne_longSymbol (files : List File) (name : String) :
    (TypeMap.ofFiles files).find? name ≠ some longSymbol := by
  intro h
  obtain ⟨f, -, hentry⟩ := TypeMap.exists_of_find?_ofFiles h
  have hmodule : "long" = "./" ++ moduleName f.name := TypeMap.module_of_mem_fileEntries hentry
  have hfirst := congrArg (fun s => s.toList.head?) hmodule
  simp at hfirst

section Fields

variable {types : TypeMap} {options : GenerationOptions}

/-- The type of a field refers to the `long` package if it is that of a long integer and the options
ask for the package. -/
theorem mem_symbols_fieldType (hforeign : ∀ name, types.find? name ≠ some longSymbol) {f : Field}
    {t : TypeExpr} (h : fieldType types options f = .ok t) :
    longSymbol ∈ t.symbols ↔ options.longType = .long ∧ isLong f.type = true := by
  unfold fieldType at h
  split at h
  · next name hscalar =>
    rw [← Except.ok.inj h, Generator.isLong_of_scalarName? hscalar]
    simp [TypeExpr.symbols]
  · split at h
    · next hlong =>
      rw [← Except.ok.inj h, hlong]
      cases options.longType with
      | number | long | string => simp [longType, TypeExpr.symbols]
    · next hshort =>
      rw [Bool.eq_false_iff.2 hshort]
      split at h
      · rw [← Except.ok.inj h]
        simp [TypeExpr.symbols]
      · obtain ⟨s, hlookup, rfl⟩ := Fault.exists_of_map_eq_ok h
        have hs : longSymbol ≠ s := by
          rintro rfl
          exact hforeign f.typeName (find?_of_lookup hlookup)
        simp [TypeExpr.symbols, hs]

/-- So does the type of the property of a slot. -/
theorem exists_type_of_slotProperty (hforeign : ∀ name, types.find? name ≠ some longSymbol)
    {found : Slot} {p : Property} (h : slotProperty types options found = .ok p) :
    ∃ t, p.type = some t ∧
      (longSymbol ∈ t.symbols ↔ options.longType = .long ∧ isLong found.typed.type = true) := by
  cases found with
  | plain f =>
    obtain ⟨t, htype, hp⟩ := Fault.exists_of_bind_eq_ok h
    rw [← Except.ok.inj hp]
    refine ⟨_, rfl, ?_⟩
    rw [Slot.typed, ← mem_symbols_fieldType hforeign htype]
    split
    · rfl
    · rfl
  | map f key value =>
    obtain ⟨t, htype, hp⟩ := Fault.exists_of_bind_eq_ok h
    rw [← Except.ok.inj hp]
    refine ⟨_, rfl, ?_⟩
    rw [Slot.typed, ← mem_symbols_fieldType hforeign htype]
    simp [TypeExpr.symbols, TypeExpr.symbolsOfList, symbols_keyType]

/-- The interface of a message refers to the `long` package if a field that is typed for it is a
long integer and the options ask for the package. -/
theorem refersToLong_interface (hforeign : ∀ name, types.find? name ≠ some longSymbol) {s : Scope}
    {name : String} {fields : List Field} {nested : List Message} {x : Declaration}
    (h : interface types options s name fields nested = .ok x) :
    RefersToLong x ↔ options.longType = .long ∧
      ∃ g ∈ fields.map (Generator.typedField (mapEntries (s.fullName name) nested)),
        isLong g.type = true := by
  obtain ⟨properties, hproperties, hx⟩ := Fault.exists_of_bind_eq_ok h
  have hfield : ∀ f p, fieldProperty types options (mapEntries (s.fullName name) nested) f = .ok p →
      ((∃ t, p.type = some t ∧ longSymbol ∈ t.symbols) ↔ options.longType = .long ∧
        isLong (Generator.typedField (mapEntries (s.fullName name) nested) f).type = true) := by
    intro f p hp
    obtain ⟨found, hslot, hproperty⟩ := Fault.exists_of_bind_eq_ok hp
    obtain ⟨t, htype, hlong⟩ := exists_type_of_slotProperty hforeign hproperty
    rw [Generator.typedField_of_slot hslot, ← hlong, htype]
    simp
  rw [← Except.ok.inj hx]
  constructor
  · rintro ⟨i, hi, p, hp, hlong⟩
    cases hi
    obtain ⟨f, hf, hproperty⟩ := Fault.exists_of_mem_results hproperties hp
    obtain ⟨hoption, htyped⟩ := (hfield f p hproperty).1 hlong
    exact ⟨hoption, _, List.mem_map_of_mem hf, htyped⟩
  · rintro ⟨hoption, g, hg, hlong⟩
    obtain ⟨f, hf, rfl⟩ := List.mem_map.1 hg
    obtain ⟨p, hp, hproperty⟩ := Fault.exists_result_of_mem hproperties hf
    exact ⟨_, rfl, p, hp, (hfield f p hproperty).2 ⟨hoption, hlong⟩⟩

/-- An enumeration has no properties. -/
theorem not_refersToLong_enumeration (options : GenerationOptions) (s : Scope)
    (e : Descriptor.Enum) : ¬RefersToLong (enumeration options s e) := by
  rintro ⟨i, hi, -⟩
  cases hi

/-- The interface of a service has no properties. -/
theorem not_refersToLong_service {s : Service} {x : Declaration}
    (h : service types options s = .ok x) : ¬RefersToLong x := by
  obtain ⟨methods, -, hx⟩ := Fault.exists_of_bind_eq_ok h
  rw [← Except.ok.inj hx]
  rintro ⟨i, hi, p, hp, -⟩
  cases hi
  cases hp

end Fields

/-! ## Messages -/

mutual

/-- A declaration of a message refers to the `long` package if a field that is typed for the message
or inside it is a long integer and the options ask for the package. -/
theorem exists_refersToLong_message {types : TypeMap} {options : GenerationOptions}
    (hforeign : ∀ name, types.find? name ≠ some longSymbol) {s : Scope} {m : Message}
    {xs : List Declaration} (h : message types options s m = .ok xs) :
    (∃ x ∈ xs, RefersToLong x) ↔
      options.longType = .long ∧ ∃ g ∈ typedFields s m, isLong g.type = true := by
  obtain ⟨name, fields, nested, enums, mapEntry⟩ := m
  unfold message at h
  cases mapEntry with
  | true =>
    cases h
    simp [typedFields]
  | false =>
    obtain ⟨own, hown, hrest⟩ := Fault.exists_of_bind_eq_ok h
    obtain ⟨inner, hinner, hxs⟩ := Fault.exists_of_bind_eq_ok hrest
    have hinside := exists_refersToLong_messages hforeign hinner
    have hself := refersToLong_interface hforeign hown
    have henums : ¬∃ x ∈ enums.map (enumeration options (s.inside name)), RefersToLong x := by
      rintro ⟨x, hx, hlong⟩
      obtain ⟨e, -, rfl⟩ := List.mem_map.1 hx
      exact not_refersToLong_enumeration options _ e hlong
    rw [← Except.ok.inj hxs, Generator.typedFields_message]
    simp only [List.mem_cons, List.mem_append, or_and_right, exists_or, exists_eq_left, henums,
      false_or, hself, hinside, and_or_left]

/-- So does a declaration of several messages. -/
theorem exists_refersToLong_messages {types : TypeMap} {options : GenerationOptions}
    (hforeign : ∀ name, types.find? name ≠ some longSymbol) {s : Scope} {ms : List Message}
    {xs : List Declaration} (h : messages types options s ms = .ok xs) :
    (∃ x ∈ xs, RefersToLong x) ↔
      options.longType = .long ∧ ∃ g ∈ typedFieldsOfAll s ms, isLong g.type = true := by
  cases ms with
  | nil =>
    cases h
    simp [typedFieldsOfAll]
  | cons m ms =>
    unfold messages at h
    obtain ⟨first, hfirst, hrest⟩ := Fault.exists_of_bind_eq_ok h
    obtain ⟨others, hothers, hxs⟩ := Fault.exists_of_bind_eq_ok hrest
    have hm := exists_refersToLong_message hforeign hfirst
    have hms := exists_refersToLong_messages hforeign hothers
    rw [← Except.ok.inj hxs, typedFieldsOfAll]
    simp only [List.mem_append, or_and_right, exists_or, hm, hms, and_or_left]

end

/-! ## Files -/

variable {types : TypeMap} {options : GenerationOptions} {f : File}

/-- A generated file declares its package, its enumerations, its messages and its services. After
these comes the setup of the `long` package if a long integer was typed and the options ask for the
package, and nothing otherwise. -/
theorem exists_members_eq {model : FileModel} (h : file types options f = .ok model) :
    ∃ inner services declarations, messages types options (Scope.ofFile f) f.messages = .ok inner ∧
      f.services.mapM (service types options) = .ok services ∧
      declarations = packageConstant f ::
        (f.enums.map (enumeration options (Scope.ofFile f)) ++ inner ++ services) ∧
      model.members = declarations.map Member.declaration ++
        if usesLong f && options.longType = .long then [.code longSetup] else [] := by
  obtain ⟨inner, hinner, hrest⟩ := Fault.exists_of_bind_eq_ok h
  obtain ⟨services, hservices, hmodel⟩ := Fault.exists_of_bind_eq_ok hrest
  exact ⟨inner, services, _, hinner, hservices, rfl, by rw [← Except.ok.inj hmodel]⟩

/-- A declaration of a generated file refers to the `long` package if a field that is typed is a
long integer and the options ask for the package. -/
theorem exists_refersToLong_declarations (hforeign : ∀ name, types.find? name ≠ some longSymbol)
    {inner services declarations : List Declaration}
    (hinner : messages types options (Scope.ofFile f) f.messages = .ok inner)
    (hservices : f.services.mapM (service types options) = .ok services)
    (hdeclarations : declarations = packageConstant f ::
      (f.enums.map (enumeration options (Scope.ofFile f)) ++ inner ++ services)) :
    (∃ x ∈ declarations, RefersToLong x) ↔ options.longType = .long ∧ usesLong f = true := by
  have hpackage : ¬RefersToLong (packageConstant f) := by
    rintro ⟨i, hi, -⟩
    cases hi
  have henums : ¬∃ x ∈ f.enums.map (enumeration options (Scope.ofFile f)), RefersToLong x := by
    rintro ⟨x, hx, hlong⟩
    obtain ⟨e, -, rfl⟩ := List.mem_map.1 hx
    exact not_refersToLong_enumeration options _ e hlong
  have hserviced : ¬∃ x ∈ services, RefersToLong x := by
    rintro ⟨x, hx, hlong⟩
    obtain ⟨s, -, hservice⟩ := Fault.exists_of_mem_results hservices hx
    exact not_refersToLong_service hservice hlong
  rw [hdeclarations]
  simp only [List.mem_cons, List.mem_append, or_and_right, exists_or, exists_eq_left, hpackage,
    henums, hserviced, false_or, or_false, exists_refersToLong_messages hforeign hinner, usesLong,
    List.any_eq_true]

/-- The code in a file is the setup of the `long` package, and it is there exactly if it has to
be. -/
structure SetsUpLong (options : GenerationOptions) (model : FileModel) : Prop where
  /-- There is a code block exactly if the options ask for the package and a property of an
  interface refers to it. -/
  code_iff : (∃ b, .code b ∈ model.members) ↔
    options.longType = .long ∧ ∃ x, .declaration x ∈ model.members ∧ RefersToLong x
  /-- If there is one, it is the setup. It comes last, and there is no other. -/
  code_last : (∃ b, .code b ∈ model.members) → ∃ declarations : List Declaration,
    model.members = declarations.map Member.declaration ++ [.code longSetup]

/-- If the type map has no type of the `long` package, a generated file sets the package up where it
has to. -/
theorem setsUpLong_of_file (hforeign : ∀ name, types.find? name ≠ some longSymbol)
    {model : FileModel} (h : file types options f = .ok model) : SetsUpLong options model := by
  obtain ⟨inner, services, declarations, hinner, hservices, hdeclarations, hmembers⟩ :=
    exists_members_eq h
  have hlong := exists_refersToLong_declarations hforeign hinner hservices hdeclarations
  have hrefers : (∃ x, .declaration x ∈ model.members ∧ RefersToLong x) ↔
      ∃ x ∈ declarations, RefersToLong x := by
    refine exists_congr fun x => and_congr_left fun _ => ?_
    rw [hmembers]
    split
    · simp
    · simp
  by_cases hsetup : options.longType = .long ∧ usesLong f = true
  · have hcode : model.members = declarations.map Member.declaration ++ [.code longSetup] := by
      rw [hmembers, if_pos (by simp [hsetup])]
    have hmem : ∃ b, .code b ∈ model.members := ⟨longSetup, by simp [hcode]⟩
    exact ⟨iff_of_true hmem ⟨hsetup.1, hrefers.2 (hlong.2 hsetup)⟩, fun _ => ⟨_, hcode⟩⟩
  · have hnone : ¬∃ b, .code b ∈ model.members := by
      rw [hmembers, if_neg (by simpa [and_comm] using hsetup)]
      simp
    have hother : ¬∃ x, .declaration x ∈ model.members ∧ RefersToLong x :=
      fun hx => hsetup (hlong.1 (hrefers.1 hx))
    exact ⟨iff_of_false hnone fun hx => hother hx.2, fun hcode => absurd hcode hnone⟩

/-- Whatever a generator has generated before, with success or not, it makes of a file what is made
of it without a note. If it succeeds, the file has the setup of the `long` package, as its last
member, exactly if the options ask for the package and a property of an interface refers to it, and
no other code. -/
theorem Generator.generate_setsUpLong (files : List File) (options : GenerationOptions)
    (history : List File) (f : File) :
    let g := (Generator.mk (TypeMap.ofFiles files) options false).afterAll history
    (g.generate f).1 = file (TypeMap.ofFiles files) options f ∧
      ∀ model, (g.generate f).1 = .ok model → SetsUpLong options model := by
  intro g
  have hfile : (g.generate f).1 = file (TypeMap.ofFiles files) options f :=
    Generator.generate_afterAll _ history f
  exact ⟨hfile, fun model hmodel =>
    setsUpLong_of_file (find?_ne_longSymbol files) (hfile.symm.trans hmodel)⟩

/-- A generator has noted a long integer in a file that it could not generate. Of the next two files
one has long integers in the keys of a map alone, and the other in the values of a map, in a message
in a message. -/
theorem Generator.generate_setsUpLong_of_failure :
    let pairs (value : Descriptor.FieldType) : Message :=
      { name := "Entry", mapEntry := true
        fields := [{ name := "key", type := .int64 }, { name := "value", type := value }] }
    let map (name : String) : Field :=
      { name := "entries", label := .repeated, type := .message, typeName := name }
    let broken : File :=
      { name := "broken.proto"
        messages := [{ name := "Broken", fields :=
          [{ name := "count", type := .int64 }, { type := .message, typeName := ".Missing" }] }] }
    let plain : File :=
      { name := "plain.proto"
        messages :=
          [{ name := "Names", fields := [map ".Names.Entry"], nested := [pairs .string] }] }
    let inner : Message :=
      { name := "Inner", fields := [map ".Outer.Inner.Entry"], nested := [pairs .fixed64] }
    let deep : File :=
      { name := "deep.proto", messages := [{ name := "Outer", nested := [inner] }] }
    let files := [broken, plain, deep]
    let options : GenerationOptions := { longType := .long }
    let g := (Generator.mk (TypeMap.ofFiles files) options false).afterAll [broken]
    g.noted = true ∧
      (∃ model, (g.generate plain).1 = .ok model ∧
        ¬∃ x, .declaration x ∈ model.members ∧ RefersToLong x) ∧
      ∃ model, (g.generate deep).1 = .ok model ∧
        (∃ x, .declaration x ∈ model.members ∧ RefersToLong x) ∧
        ∃ declarations : List Declaration,
          model.members = declarations.map Member.declaration ++ [.code longSetup] := by
  intro pairs map broken plain inner deep files options g
  have hplain : ((g.generate plain).1.map fun model => model.codeBlocks.length) = .ok 0 := by
    decide +kernel
  have hdeep : ((g.generate deep).1.map fun model => model.codeBlocks.length) = .ok 1 := by
    decide +kernel
  obtain ⟨first, hfirst, hnone⟩ := Fault.exists_of_map_eq_ok hplain
  obtain ⟨second, hsecond, hone⟩ := Fault.exists_of_map_eq_ok hdeep
  have hsetup := (generate_setsUpLong files options [broken] plain).2 first hfirst
  have hsetup' := (generate_setsUpLong files options [broken] deep).2 second hsecond
  obtain ⟨block, hblock⟩ := List.exists_mem_of_length_pos (hone ▸ Nat.one_pos)
  have hcode : ∃ b, .code b ∈ second.members := ⟨block, FileModel.mem_codeBlocks.1 hblock⟩
  refine ⟨by decide +kernel, ⟨first, hfirst, fun hx => ?_⟩, second, hsecond,
    (hsetup'.code_iff.1 hcode).2, hsetup'.code_last hcode⟩
  obtain ⟨b, hb⟩ := hsetup.code_iff.2 ⟨rfl, hx⟩
  rw [← FileModel.mem_codeBlocks, List.length_eq_zero_iff.1 hnone] at hb
  cases hb

end Generation

end ModuleAssembly
