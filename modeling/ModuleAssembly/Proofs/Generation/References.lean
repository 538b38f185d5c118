import ModuleAssembly.Proofs.Assembly.Stability
import ModuleAssembly.Proofs.Association
import ModuleAssembly.Proofs.Generation.DeclaredTypes

/-!
# The symbols of generated files

The symbols that a generated file uses come from packages, or from the type map by the full name
that a field or a method gives. A field whose type is a map entry of its own message is looked up by
the value of the entry instead. So where map entries are only used in this way
(`Generation.KeepsEntries`), no symbol of a generated file is that of a map entry
(`Generation.exists_collect`).
-/

namespace ModuleAssembly

open Descriptor (Field FieldType Message Method Service File)

/-! ## Outputs that hold only what they should -/

namespace Output

variable {α β : Type} {P : α → Prop}

/-- An output that was not stopped, and all of whose items have a property. -/
structure HoldsAll (P : α → Prop) (a : Output α) : Prop where
  /-- It was not stopped. -/
  fault_eq : a.fault = none
  /-- Its items have the property. -/
  forall_items : ∀ x ∈ a.items, P x

/-- A list is not stopped. -/
theorem holdsAll_ofList {items : List α} (h : ∀ x ∈ items, P x) : (ofList items).HoldsAll P :=
  ⟨rfl, h⟩

/-- Nothing is not stopped. -/
theorem holdsAll_empty : (empty : Output α).HoldsAll P :=
  holdsAll_ofList fun x hx => by cases hx

/-- One output after another. -/
theorem HoldsAll.append {a b : Output α} (ha : a.HoldsAll P) (hb : b.HoldsAll P) :
    (a ++ b).HoldsAll P where
  fault_eq := fault_append_eq_none.2 ⟨ha.fault_eq, hb.fault_eq⟩
  forall_items := by
    rw [items_append b ha.fault_eq]
    exact fun x hx => (List.mem_append.1 hx).elim (ha.forall_items x) (hb.forall_items x)

/-- What the elements of a list have produced, one after the other. -/
theorem holdsAll_concat_map {f : β → Output α} {xs : List β} (h : ∀ x ∈ xs, (f x).HoldsAll P) :
    (concat (xs.map f)).HoldsAll P := by
  induction xs with
  | nil => exact holdsAll_empty
  | cons x xs ih =>
    exact (h x List.mem_cons_self).append (ih fun y hy => h y (List.mem_cons_of_mem x hy))

/-- Such an output gives all of its items. -/
theorem HoldsAll.exists_toExcept {a : Output α} (h : a.HoldsAll P) :
    ∃ items, a.toExcept = .ok items ∧ ∀ x ∈ items, P x :=
  ⟨a.items, toExcept_of_none h.fault_eq, h.forall_items⟩

end Output

namespace Generation

open TypeMap (Declared DeclaredType Scope declaredIn typesOf)

variable {types : TypeMap} {options : GenerationOptions} {P : Symbol → Prop}

/-- Whether a field of a type gives the name of a message or of an enumeration. -/
def isNamed : FieldType → Bool
  | .group | .message | .enumeration => true
  | _ => false

/-- If a field gives a name, its symbol has a property. -/
def Refers (types : TypeMap) (P : Symbol → Prop) (f : Field) : Prop :=
  isNamed f.type = true → ∀ s, types.find? f.typeName = some s → P s

/-- A name that was looked up has the symbol that was found. -/
theorem find?_of_lookup {fullName : String} {s : Symbol} (h : lookup types fullName = .ok s) :
    types.find? fullName = some s := by
  unfold lookup at h
  split at h
  · next found hfound => rw [hfound, Except.ok.inj h]
  · cases h

/-- A field type with neither a name of its own nor sixty-four bits gives a name. -/
theorem isNamed_of_scalarName?_eq_none {t : FieldType} (hscalar : scalarName? t = none)
    (hlong : isLong t = false) : isNamed t = true := by
  revert hscalar hlong
  cases t <;> decide

/-- The type of a field is a bare name, the type of long integers, or the symbol of the name that
the field gives. -/
theorem fieldType_cases {f : Field} {t : TypeExpr} (h : fieldType types options f = .ok t) :
    (∃ name, t = .named name) ∨ t = .symbol longSymbol ∨
      isNamed f.type = true ∧ ∃ s, types.find? f.typeName = some s ∧ t = .symbol s := by
  unfold fieldType at h
  split at h
  · next name _ => exact .inl ⟨name, (Except.ok.inj h).symm⟩
  · next hscalar =>
    split at h
    · rw [← Except.ok.inj h]
      cases options.longType with
      | long => exact .inr (.inl rfl)
      | string => exact .inl ⟨"string", rfl⟩
      | number => exact .inl ⟨"number", rfl⟩
    · next hshort =>
      split at h
      · exact .inl ⟨"Date", (Except.ok.inj h).symm⟩
      · obtain ⟨s, hlookup, hsymbol⟩ := Fault.exists_of_map_eq_ok h
        have hnamed := isNamed_of_scalarName?_eq_none hscalar (Bool.eq_false_iff.2 hshort)
        exact .inr (.inr ⟨hnamed, s, find?_of_lookup hlookup, hsymbol.symm⟩)

/-- The symbols of the type of a field. -/
theorem forall_symbols_fieldType {f : Field} {t : TypeExpr} (hlong : P longSymbol)
    (hf : Refers types P f) (h : fieldType types options f = .ok t) : ∀ s ∈ t.symbols, P s := by
  intro s hs
  obtain ⟨name, rfl⟩ | rfl | ⟨hnamed, found, hfound, rfl⟩ := fieldType_cases h
  · cases hs
  · rw [List.mem_singleton.1 hs]
    exact hlong
  · rw [List.mem_singleton.1 hs]
    exact hf hnamed found hfound

/-- What decides the type of a field: the field itself, if its type is no map entry of its message,
or the fields of the entry. -/
structure RefersIn (types : TypeMap) (P : Symbol → Prop) (entries : List (String × Message))
    (f : Field) : Prop where
  /-- A field of another type. -/
  plain : entries.lookup f.typeName = none → Refers types P f
  /-- A map. -/
  map : ∀ e, entries.lookup f.typeName = some e → ∀ g ∈ e.fields, Refers types P g

/-- The field whose type decides what a slot holds. -/
theorem refers_typed_of_slot {entries : List (String × Message)} {f : Field} {found : Slot}
    (hf : RefersIn types P entries f) (h : slot entries f = .ok found) :
    Refers types P found.typed := by
  unfold slot at h
  cases hentry : entries.lookup f.typeName with
  | none =>
    rw [hentry] at h
    rw [← Except.ok.inj h]
    exact hf.plain hentry
  | some e =>
    rw [hentry] at h
    dsimp only at h
    split at h
    · next key value others hfields =>
      rw [← Except.ok.inj h]
      refine hf.map e hentry value ?_
      rw [hfields]
      exact List.mem_cons_of_mem key List.mem_cons_self
    · cases h

/-- The type of the keys of a map has no symbols. -/
theorem symbols_keyType (f : Field) : (keyType f).symbols = [] := by
  unfold keyType
  split
  · rfl
  · rfl

/-- The symbols of the property of a slot are those of one type. -/
theorem exists_fieldType_of_slotProperty {found : Slot} {p : Property}
    (h : slotProperty types options found = .ok p) :
    ∃ t, fieldType types options found.typed = .ok t ∧ p.symbols = .ofList t.symbols := by
  cases found with
  | plain f =>
    rw [slotProperty] at h
    obtain ⟨t, htype, hp⟩ := Fault.exists_of_bind_eq_ok h
    refine ⟨t, htype, ?_⟩
    rw [← Except.ok.inj hp]
    cases f.label with
    | repeated | optional | required => exact Output.append_empty _
  | map f key value =>
    rw [slotProperty] at h
    obtain ⟨t, htype, hp⟩ := Fault.exists_of_bind_eq_ok h
    refine ⟨t, htype, ?_⟩
    have hrecord : (TypeExpr.generic (.named "Record") [keyType key, t]).symbols = t.symbols := by
      simp [TypeExpr.symbols, TypeExpr.symbolsOfList, symbols_keyType]
    rw [← Except.ok.inj hp, ← hrecord]
    exact Output.append_empty _

/-- The symbols of the property of a field. -/
theorem holdsAll_fieldProperty {entries : List (String × Message)} {f : Field} {p : Property}
    (hlong : P longSymbol) (hf : RefersIn types P entries f)
    (h : fieldProperty types options entries f = .ok p) : p.symbols.HoldsAll P := by
  obtain ⟨found, hslot, hproperty⟩ := Fault.exists_of_bind_eq_ok h
  obtain ⟨t, htype, hsymbols⟩ := exists_fieldType_of_slotProperty hproperty
  rw [hsymbols]
  exact Output.holdsAll_ofList
    (forall_symbols_fieldType hlong (refers_typed_of_slot hf hslot) htype)

/-! ## Declarations -/

/-- An interface that extends nothing has the symbols of its properties and methods. -/
theorem holdsAll_interface {d : Interface} (hbases : d.bases = [])
    (hproperties : ∀ p ∈ d.properties, p.symbols.HoldsAll P)
    (hmethods : ∀ m ∈ d.methods, m.symbols.HoldsAll P) :
    (Declaration.interface d).symbols.HoldsAll P := by
  have hnone : (typesSymbols d.bases).HoldsAll P := by
    rw [hbases]
    exact Output.holdsAll_empty
  exact (hnone.append (Output.holdsAll_concat_map hproperties)).append
    (Output.holdsAll_concat_map hmethods)

/-- The symbols of the interface of a message. -/
theorem holdsAll_messageInterface {s : Scope} {name : String} {fields : List Field}
    {nested : List Message} {x : Declaration} (hlong : P longSymbol)
    (hfields : ∀ f ∈ fields, RefersIn types P (mapEntries (s.fullName name) nested) f)
    (h : interface types options s name fields nested = .ok x) : x.symbols.HoldsAll P := by
  obtain ⟨properties, hproperties, hx⟩ := Fault.exists_of_bind_eq_ok h
  rw [← Except.ok.inj hx]
  refine holdsAll_interface rfl (fun p hp => ?_) fun m hm => by cases hm
  obtain ⟨f, hf, hproperty⟩ := Fault.exists_of_mem_results hproperties hp
  exact holdsAll_fieldProperty hlong (hfields f hf) hproperty

/-- The symbols of what the generator makes of a type. -/
theorem holdsAll_declare {f : File} {d : DeclaredType} {x : Declaration} (hlong : P longSymbol)
    (hfields : ∀ m, d.body = .message m → ∀ g ∈ m.fields,
      RefersIn types P (mapEntries (d.fullName f) m.nested) g)
    (h : declare types options f d = .ok x) : x.symbols.HoldsAll P := by
  unfold declare at h
  split at h
  · next m hbody =>
    refine holdsAll_messageInterface hlong (fun g hg => ?_) h
    rw [← DeclaredType.fullName_of_body hbody]
    exact hfields m hbody g hg
  · rw [← Except.ok.inj h]
    exact Output.holdsAll_empty

/-- The symbols of a method of a service. -/
theorem holdsAll_method {m : Method} {result : Function} (hobservable : P observableSymbol)
    (hm : ∀ s, types.find? m.inputType = some s ∨ types.find? m.outputType = some s → P s)
    (h : method types options m = .ok result) : result.symbols.HoldsAll P := by
  obtain ⟨output, houtput, hrest⟩ := Fault.exists_of_bind_eq_ok h
  obtain ⟨input, hinput, hresult⟩ := Fault.exists_of_bind_eq_ok hrest
  have hin : P input := hm input (.inl (find?_of_lookup hinput))
  have hout : P output := hm output (.inr (find?_of_lookup houtput))
  rw [← Except.ok.inj hresult]
  have hparameters : (Output.ofList [input]).HoldsAll P :=
    Output.holdsAll_ofList fun s hs => List.mem_singleton.1 hs ▸ hin
  -- There is no body, and the result is the output type in the type of streams or of promises.
  refine (hparameters.append (Output.holdsAll_ofList ?_)).append Output.holdsAll_empty
  show ∀ s ∈ (TypeExpr.generic _ [.symbol output]).symbols, P s
  split
  · simp [TypeExpr.symbols, TypeExpr.symbolsOfList, hobservable, hout]
  · simp [TypeExpr.symbols, TypeExpr.symbolsOfList, hout]

/-- The symbols of the interface of a service. -/
theorem holdsAll_service {service : Service} {x : Declaration} (hobservable : P observableSymbol)
    (hmethods : ∀ m ∈ service.methods, ∀ s,
      types.find? m.inputType = some s ∨ types.find? m.outputType = some s → P s)
    (h : Generation.service types options service = .ok x) : x.symbols.HoldsAll P := by
  obtain ⟨methods, hresults, hx⟩ := Fault.exists_of_bind_eq_ok h
  rw [← Except.ok.inj hx]
  refine holdsAll_interface rfl (fun p hp => by cases hp) fun result hresult => ?_
  obtain ⟨m, hm, hmethod⟩ := Fault.exists_of_mem_results hresults hresult
  exact holdsAll_method hobservable (hmethods m hm) hmethod

/-- The value of the constant that holds the package is one string. -/
theorem segments_package (package : String) :
    CodeBlock.segments { format := "%S", args := [.text package] } =
      .single (.string (.text package)) := by
  have hparse : Format.parse "%S" = .ok [.string] := by decide +kernel
  rw [CodeBlock.segments, hparse]
  rfl

/-- The constant that holds the package has no symbols. -/
theorem symbols_packageConstant (f : File) : (packageConstant f).symbols = .empty := by
  show Output.empty ++ CodeBlock.symbols { format := "%S", args := [.text f.package] } = .empty
  rw [CodeBlock.symbols, segments_package]
  rfl

/-- The symbols of the code that makes the runtime use the `long` package. -/
theorem symbols_longSetup : longSetup.symbols =
    .ofList [utilSymbol, longSymbol, utilSymbol, longSymbol, configureSymbol] := by
  decide +kernel

/-! ## Files -/

/-- What a generated file consists of. -/
structure GeneratedFrom (types : TypeMap) (options : GenerationOptions) (f : File)
    (model : FileModel) (inner services : List Declaration) : Prop where
  /-- Its messages were generated. -/
  inner_eq : messages types options (Scope.ofFile f) f.messages = .ok inner
  /-- Its services were generated. -/
  services_eq : f.services.mapM (service types options) = .ok services
  /-- It goes where the name of the descriptor's file says. -/
  path_eq : model.path = outputPath f
  /-- It declares its package, its enumerations, its messages and its services. -/
  declarations_eq : model.declarations = packageConstant f ::
    (f.enums.map (enumeration options (Scope.ofFile f)) ++ inner ++ services)
  /-- It has no other code than what makes the runtime use the `long` package. -/
  codeBlocks_subset : ∀ b ∈ model.codeBlocks, b = longSetup

/-- A file that is generated consists of its parts. -/
theorem exists_generatedFrom {f : File} {model : FileModel}
    (h : file types options f = .ok model) :
    ∃ inner services, GeneratedFrom types options f model inner services := by
  obtain ⟨inner, hinner, hrest⟩ := Fault.exists_of_bind_eq_ok h
  obtain ⟨services, hservices, hmodel⟩ := Fault.exists_of_bind_eq_ok hrest
  refine ⟨inner, services, hinner, hservices, ?_, ?_, ?_⟩
  · rw [← Except.ok.inj hmodel]
  · rw [← Except.ok.inj hmodel, FileModel.declarations, List.filterMap_append,
      Member.filterMap_declaration?_map]
    split
    · exact List.append_nil _
    · exact List.append_nil _
  · rw [← Except.ok.inj hmodel, FileModel.codeBlocks, List.filterMap_append,
      Member.filterMap_code?_map]
    split
    · exact fun b hb => List.mem_singleton.1 hb
    · exact fun b hb => by cases hb

/-- A generated file goes where the name of the descriptor's file says. -/
theorem path_of_file {f : File} {model : FileModel} (h : file types options f = .ok model) :
    model.path = outputPath f := by
  obtain ⟨inner, services, hfrom⟩ := exists_generatedFrom h
  exact hfrom.path_eq

namespace GeneratedFrom

variable {f : File} {model : FileModel} {inner services : List Declaration}

/-- The generator has made the enumerations and the messages of the file of its types. -/
theorem declareAll_eq (h : GeneratedFrom types options f model inner services) :
    declareAll types options f (TypeMap.typesOf f) =
      .ok (f.enums.map (enumeration options (Scope.ofFile f)) ++ inner) := by
  rw [declareAll_typesOf, h.inner_eq]
  rfl

/-- A generated file declares what the generator makes of each of its types that is generated. -/
theorem exists_declare_of_mem (h : GeneratedFrom types options f model inner services)
    {d : TypeMap.DeclaredType} (hd : d ∈ TypeMap.typesOf f) (hgenerated : d.isGenerated = true) :
    ∃ x ∈ model.declarations, declare types options f d = .ok x := by
  obtain ⟨x, hx, hdeclare⟩ :=
    Fault.exists_result_of_mem h.declareAll_eq (List.mem_filter.2 ⟨hd, hgenerated⟩)
  refine ⟨x, ?_, hdeclare⟩
  rw [h.declarations_eq]
  exact List.mem_cons_of_mem _ (List.mem_append_left services hx)

/-- A declaration for the messages of a file is what the generator makes of one of its types. -/
theorem exists_of_mem_inner (h : GeneratedFrom types options f model inner services)
    {x : Declaration} (hx : x ∈ inner) :
    ∃ d ∈ typesOf f, declare types options f d = .ok x := by
  obtain ⟨d, hd, hdeclare⟩ :=
    Fault.exists_of_mem_results h.declareAll_eq (List.mem_append_right _ hx)
  exact ⟨d, (List.mem_filter.1 hd).1, hdeclare⟩

/-- The symbols of the declarations of a generated file are those of its messages, and those that
its methods refer to. -/
theorem holdsAll_declarations (h : GeneratedFrom types options f model inner services)
    (hobservable : P observableSymbol) (hinner : ∀ x ∈ inner, x.symbols.HoldsAll P)
    (hmethods : ∀ s ∈ f.services, ∀ m ∈ s.methods, ∀ t,
      types.find? m.inputType = some t ∨ types.find? m.outputType = some t → P t) :
    ∀ x ∈ model.declarations, x.symbols.HoldsAll P := by
  rw [h.declarations_eq]
  refine List.forall_mem_cons.2 ⟨?_, ?_⟩
  · rw [symbols_packageConstant]
    exact Output.holdsAll_empty
  · intro x hx
    rcases List.mem_append.1 hx with hfront | hservice
    · rcases List.mem_append.1 hfront with henum | hmessage
      · obtain ⟨e, -, rfl⟩ := List.mem_map.1 henum
        exact Output.holdsAll_empty
      · exact hinner x hmessage
    · obtain ⟨s, hs, hresult⟩ := Fault.exists_of_mem_results h.services_eq hservice
      exact holdsAll_service hobservable (hmethods s hs) hresult

/-- The symbols of a generated file are collected if those of its declarations are. -/
theorem exists_collect (h : GeneratedFrom types options f model inner services)
    (hsetup : ∀ s ∈ [utilSymbol, longSymbol, configureSymbol], P s)
    (hdeclarations : ∀ x ∈ model.declarations, x.symbols.HoldsAll P) :
    ∃ typed code, collect model.members = .ok typed ∧ collectCode model.members = .ok code ∧
      ∀ s ∈ typed ++ code, P s := by
  have hblocks : (Output.concat (model.codeBlocks.map CodeBlock.symbols)).HoldsAll P := by
    refine Output.holdsAll_concat_map fun b hb => ?_
    rw [h.codeBlocks_subset b hb, symbols_longSetup]
    refine Output.holdsAll_ofList fun s hs => hsetup s ?_
    revert s
    decide
  obtain ⟨typed, htyped, htypedAll⟩ := (Output.holdsAll_concat_map hdeclarations).exists_toExcept
  obtain ⟨code, hcode, hcodeAll⟩ := hblocks.exists_toExcept
  exact ⟨typed, code, htyped, hcode,
    fun s hs => (List.mem_append.1 hs).elim (htypedAll s) (hcodeAll s)⟩

end GeneratedFrom

/-! ## Map entries -/

/-- Whether a message of some files that has a full name stands for the entries of a map. -/
def NamesEntry (files : List File) (fullName : String) : Prop :=
  ∃ f ∈ files, ∃ d ∈ declaredIn f, d.message.mapEntry = true ∧ d.fullName = fullName

instance (files : List File) (fullName : String) : Decidable (NamesEntry files fullName) :=
  inferInstanceAs (Decidable (∃ f ∈ files, ∃ d ∈ declaredIn f,
    d.message.mapEntry = true ∧ d.fullName = fullName))

/-- What a compiler keeps to about the messages that stand for the entries of maps: nothing is
declared in them, and no field refers to them but those of the message around them. -/
structure KeepsEntries (files : List File) : Prop where
  /-- No message is declared in a map entry, and no enumeration. -/
  bare : ∀ f ∈ files, ∀ d ∈ declaredIn f, d.message.mapEntry = true →
    d.message.nested = [] ∧ d.message.enums = []
  /-- A field that gives the name of a map entry is a field of the message around it. -/
  fields : ∀ f ∈ files, ∀ d ∈ declaredIn f, ∀ g ∈ d.message.fields, isNamed g.type = true →
    NamesEntry files g.typeName →
      ∃ e ∈ d.message.nested, e.mapEntry = true ∧ d.inner.fullName e.name = g.typeName
  /-- No method takes or returns a map entry. -/
  methods : ∀ f ∈ files, ∀ s ∈ f.services, ∀ m ∈ s.methods,
    ¬NamesEntry files m.inputType ∧ ¬NamesEntry files m.outputType

instance (files : List File) : Decidable (KeepsEntries files) :=
  decidable_of_iff
    ((∀ f ∈ files, ∀ d ∈ declaredIn f, d.message.mapEntry = true →
        d.message.nested = [] ∧ d.message.enums = []) ∧
      (∀ f ∈ files, ∀ d ∈ declaredIn f, ∀ g ∈ d.message.fields, isNamed g.type = true →
        NamesEntry files g.typeName →
          ∃ e ∈ d.message.nested, e.mapEntry = true ∧ d.inner.fullName e.name = g.typeName) ∧
      ∀ f ∈ files, ∀ s ∈ f.services, ∀ m ∈ s.methods,
        ¬NamesEntry files m.inputType ∧ ¬NamesEntry files m.outputType)
    ⟨fun ⟨hbare, hfields, hmethods⟩ => ⟨hbare, hfields, hmethods⟩,
      fun h => ⟨h.bare, h.fields, h.methods⟩⟩

/-- A symbol of a package, or one that the type map has for a name that no map entry has. -/
def IsLinked (files : List File) (s : Symbol) : Prop :=
  Text.after? Path.localMark s.module = none ∨
    ∃ fullName, ¬NamesEntry files fullName ∧
      (TypeMap.ofFiles files).find? fullName = some s

/-- What is found among the map entries in a message is one of them. -/
theorem mem_of_lookup_mapEntries {scope name : String} {nested : List Message} {e : Message}
    (h : (mapEntries scope nested).lookup name = some e) : e ∈ nested ∧ e.mapEntry = true := by
  obtain ⟨m, hm, hpair⟩ := List.mem_map.1 (Association.mem_of_lookup_ofList h)
  cases hpair
  exact List.mem_filter.1 hm

/-- Every map entry in a message is found. -/
theorem isSome_lookup_mapEntries {d : Declared} {e : Message} (he : e ∈ d.message.nested)
    (hentry : e.mapEntry = true) :
    ((mapEntries d.fullName d.message.nested).lookup (d.inner.fullName e.name)).isSome = true := by
  rw [mapEntries, Association.isSome_lookup_ofList, List.map_map]
  exact List.mem_map.2 ⟨e, List.mem_filter.2 ⟨he, hentry⟩, rfl⟩

/-- The fields of the messages of files refer to symbols that are not those of map entries. -/
theorem KeepsEntries.refersIn {files : List File} (h : KeepsEntries files) {f : File}
    (hf : f ∈ files) {d : Declared} (hd : d ∈ declaredIn f) {g : Field}
    (hg : g ∈ d.message.fields) :
    RefersIn (TypeMap.ofFiles files) (IsLinked files) (mapEntries d.fullName d.message.nested)
      g where
  plain := by
    intro hnone hnamed s hs
    refine .inr ⟨g.typeName, fun hentry => ?_, hs⟩
    -- The entry would be one of the message itself, and would have been found there.
    obtain ⟨e, he, hmap, hname⟩ := h.fields f hf d hd g hg hnamed hentry
    have hfound := isSome_lookup_mapEntries he hmap
    rw [hname, hnone] at hfound
    cases hfound
  map := by
    intro e hfound value hvalue hnamed s hs
    obtain ⟨he, hmap⟩ := mem_of_lookup_mapEntries hfound
    have hdeclared : ⟨d.inner, e⟩ ∈ declaredIn f := TypeMap.mem_declaredIn_of_nested hd he
    refine .inr ⟨value.typeName, fun hentry => ?_, hs⟩
    -- The value of a map cannot be an entry, since that would be declared in the map's own entry.
    obtain ⟨inside, hinside, -⟩ := h.fields f hf _ hdeclared value hvalue hnamed hentry
    have hbare : e.nested = [] := (h.bare f hf _ hdeclared hmap).1
    rw [hbare] at hinside
    cases hinside

/-- The symbols of a generated file are collected, and none of them is that of a map entry. -/
theorem exists_collect {files : List File} (hkeeps : KeepsEntries files) {f : File} (hf : f ∈ files)
    {model : FileModel} (h : file (TypeMap.ofFiles files) options f = .ok model) :
    ∃ typed code, collect model.members = .ok typed ∧ collectCode model.members = .ok code ∧
      ∀ s ∈ typed ++ code, IsLinked files s := by
  obtain ⟨inner, services, hfrom⟩ := exists_generatedFrom h
  have hobservable : IsLinked files observableSymbol := .inl (by decide)
  have hsetup : ∀ s ∈ [utilSymbol, longSymbol, configureSymbol], IsLinked files s := by
    refine fun s hs => .inl ?_
    revert s
    decide
  refine hfrom.exists_collect hsetup (hfrom.holdsAll_declarations hobservable ?_ ?_)
  · intro x hx
    obtain ⟨d, hd, hdeclare⟩ := hfrom.exists_of_mem_inner hx
    refine holdsAll_declare (hsetup longSymbol (by decide)) (fun m hbody g hg => ?_) hdeclare
    have hm : ⟨d.place, .message m⟩ ∈ typesOf f := by rwa [← hbody]
    rw [DeclaredType.fullName_of_body hbody]
    exact hkeeps.refersIn (d := ⟨d.place.scope f, m⟩) hf
      (TypeMap.mem_declaredIn.2 ⟨d.place, hm, rfl⟩) hg
  · intro s hs m hm t ht
    obtain ⟨hin, hout⟩ := hkeeps.methods f hf s hs m hm
    rcases ht with hinput | houtput
    · exact .inr ⟨m.inputType, hin, hinput⟩
    · exact .inr ⟨m.outputType, hout, houtput⟩

end Generation

end ModuleAssembly
