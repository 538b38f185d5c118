import ModuleAssembly.Proofs.Generation.References

/-!
# A generator with a note

Whether a file needs the `long` package may also be noted while its fields are typed, at any depth
of its messages, and looked up at the end. A generator that does so keeps its note from one file to
the next, and also when it fails half way, so it has to forget it before each file. `Generator` is
such a generator. Its work goes step by step as that without a note does, and leaves the note of the
fields that were typed (`Generator.Work.Does`), so whatever it has generated before, it makes of a
file what `Generation.file` says (`Generator.generate_eq`).
-/

namespace ModuleAssembly.Generation

open Descriptor (Field File Message)
open TypeMap (Scope)

/-- What generates one file after the other. -/
structure Generator where
  /-- The type map. -/
  types : TypeMap
  /-- The options. -/
  options : GenerationOptions
  /-- Whether a field with a long integer was typed. -/
  noted : Bool := false

namespace Generator

/-- Work that may fail, and may change the note whether it fails or not. -/
abbrev Work (α : Type) :=
  ExceptT Fault (StateM Bool) α

/-! ## The work -/

section Steps

variable (types : TypeMap) (options : GenerationOptions)

/-- The type of a field, not counting that it may be repeated. A long integer is noted. -/
def fieldType (f : Field) : Work TypeExpr :=
  match scalarName? f.type with
  | some name => return .named name
  | none =>
    if isLong f.type then do
      set true
      return longType options.longType
    else if f.typeName = timestamp ∧ options.useDate then return .named "Date"
    else return .symbol (← lookup types f.typeName)

/-- The property of a slot. -/
def slotProperty : Slot → Work Property
  | .map f key value => do
    let valueType ← fieldType types options value
    let record : TypeExpr := .generic (.named "Record") [keyType key, valueType]
    return { name := propertyName options f, type := some record }
  | .plain f => do
    let type ← fieldType types options f
    let type := if f.label = .repeated then .array type else type
    return { name := propertyName options f, type := some type, isOptional := isOptional options f }

/-- The property of a field, among the map entries of its message. -/
def fieldProperty (entries : List (String × Message)) (f : Field) : Work Property := do
  slotProperty types options (← slot entries f)

/-- The interface of a message. -/
def interface (s : Scope) (name : String) (fields : List Field) (nested : List Message) :
    Work Declaration := do
  let properties ← fields.mapM (fieldProperty types options (mapEntries (s.fullName name) nested))
  return .interface { name := s.generatedName name, properties }

mutual

/-- The declarations of a message: its interface, then what is declared inside it. -/
def message (s : Scope) : Message → Work (List Declaration)
  | ⟨name, fields, nested, enums, mapEntry⟩ =>
    if mapEntry then return []
    else do
      let own ← interface types options s name fields nested
      let inner ← messages (s.inside name) nested
      return own :: (enums.map (enumeration options (s.inside name)) ++ inner)

/-- The declarations of several messages. -/
def messages (s : Scope) : List Message → Work (List Declaration)
  | [] => return []
  | m :: ms => do
    let first ← message s m
    let others ← messages s ms
    return first ++ others

end

/-- The file model of a descriptor's file. The note is forgotten at first, and looked up at last. -/
def model (f : File) : Work FileModel := do
  set false
  let scope := Scope.ofFile f
  let inner ← messages types options scope f.messages
  let services ← f.services.mapM fun s => liftM (service types options s)
  let declarations :=
    packageConstant f :: (f.enums.map (enumeration options scope) ++ inner ++ services)
  let noted ← get
  let setup := if noted && options.longType = .long then [Member.code longSetup] else []
  return {
    path := outputPath f
    comment := some (header f)
    members := declarations.map .declaration ++ setup }

end Steps

/-- Generates a file: what comes of it, and the generator after it. -/
def generate (g : Generator) (f : File) : Except Fault FileModel × Generator :=
  let (result, noted) := (model g.types g.options f).run.run g.noted
  (result, { g with noted })

/-- The generator after files were generated one after the other, each of them with success or
not. -/
def afterAll (g : Generator) (history : List File) : Generator :=
  history.foldl (fun g f => (g.generate f).2) g

/-! ## Work with and without a note -/

namespace Work

variable {α β : Type}

/-- Work has a result, whatever was noted before, and if it succeeds it adds to the note that the
fields were typed. -/
structure Does (x : Work α) (result : Except Fault α) (typed : List Field) : Prop where
  /-- The result. -/
  result_eq : ∀ noted, (x.run.run noted).1 = result
  /-- The note. -/
  noted_eq : ∀ a, result = .ok a → ∀ noted,
    (x.run.run noted).2 = (noted || typed.any fun g => isLong g.type)

/-- Nothing is noted for what is given. -/
theorem does_pure (a : α) : Does (pure a) (.ok a) [] :=
  ⟨fun _ => rfl, fun _ _ noted => (Bool.or_false noted).symm⟩

/-- Fields count by whether one of them is a long integer. -/
theorem Does.congr {x : Work α} {result : Except Fault α} {typed others : List Field}
    (h : Does x result typed)
    (hany : (typed.any fun g => isLong g.type) = others.any fun g => isLong g.type) :
    Does x result others :=
  ⟨h.result_eq, fun a ha noted => hany ▸ h.noted_eq a ha noted⟩

/-- What is given with a note. -/
theorem does_note (a : α) {typed : List Field} (h : (typed.any fun g => isLong g.type) = true) :
    Does (do set true; return a) (.ok a) typed :=
  ⟨fun _ => rfl, fun _ _ noted => by rw [h, Bool.or_true]; rfl⟩

/-- Nothing is noted by work without a note. -/
theorem does_lift (result : Except Fault α) : Does (liftM result) result [] :=
  ⟨fun _ => rfl, fun _ _ noted => (Bool.or_false noted).symm⟩

/-- The second step goes on with the result and the note of the first, unless that fails. -/
theorem run_bind (x : Work α) (f : α → Work β) (noted : Bool) :
    (x >>= f).run.run noted =
      match (x.run.run noted).1 with
      | .ok a => (f a).run.run (x.run.run noted).2
      | .error fault => (.error fault, (x.run.run noted).2) := by
  cases h : x.run.run noted with
  | mk result after =>
    have hrun : (x >>= f).run.run noted =
        (ExceptT.bindCont f (x.run.run noted).1).run (x.run.run noted).2 := rfl
    rw [hrun, h]
    cases result with
    | ok a => rfl
    | error fault => rfl

/-- After work that succeeds comes the next, with what was noted. -/
theorem Does.run_bind_ok {x : Work α} {a : α} {typed : List Field} (hx : Does x (.ok a) typed)
    (f : α → Work β) (noted : Bool) :
    (x >>= f).run.run noted = (f a).run.run (noted || typed.any fun g => isLong g.type) := by
  rw [run_bind, hx.result_eq, ← hx.noted_eq a rfl]

/-- After work that fails nothing comes. -/
theorem Does.run_bind_error {x : Work α} {fault : Fault} {typed : List Field}
    (hx : Does x (.error fault) typed) (f : α → Work β) (noted : Bool) :
    ((x >>= f).run.run noted).1 = .error fault := by
  rw [run_bind, hx.result_eq]

/-- Two steps of work. -/
theorem Does.bind {x : Work α} {result : Except Fault α} {typed more : List Field}
    (hx : Does x result typed) {f : α → Work β} {g : α → Except Fault β}
    (hf : ∀ a, result = .ok a → Does (f a) (g a) more) :
    Does (x >>= f) (result >>= g) (typed ++ more) := by
  cases result with
  | error fault => exact ⟨fun noted => hx.run_bind_error f noted, fun b hb => by cases hb⟩
  | ok a =>
    refine ⟨fun noted => ?_, fun b hb noted => ?_⟩
    · rw [hx.run_bind_ok]
      exact (hf a rfl).result_eq _
    · rw [hx.run_bind_ok, List.any_append, ← Bool.or_assoc]
      exact (hf a rfl).noted_eq b hb _

/-- Work for each element of a list. -/
theorem Does.mapM {f : α → Work β} {g : α → Except Fault β} {typed : α → List Field}
    (hf : ∀ x, Does (f x) (g x) (typed x)) (xs : List α) :
    Does (xs.mapM f) (xs.mapM g) (xs.flatMap typed) := by
  induction xs with
  | nil => exact does_pure []
  | cons x xs ih =>
    rw [List.mapM_cons, List.mapM_cons, List.flatMap_cons]
    refine (hf x).bind fun y _ => ?_
    have hrest := ih.bind (f := fun ys => pure (y :: ys)) fun ys _ => does_pure (y :: ys)
    rwa [List.append_nil] at hrest

end Work

open Work (Does does_pure does_note does_lift)

/-! ## The steps -/

/-- A field type with a name of its own is no long integer. -/
theorem isLong_of_scalarName? {t : Descriptor.FieldType} {name : String}
    (h : scalarName? t = some name) : isLong t = false := by
  revert h
  cases t <;> simp [scalarName?, isLong]

section Agreement

variable (types : TypeMap) (options : GenerationOptions)

/-- The type of a field is noted if it is a long integer. -/
theorem does_fieldType (f : Field) :
    Does (fieldType types options f) (Generation.fieldType types options f) [f] := by
  have hany : ([f].any fun g => isLong g.type) = isLong f.type := Bool.or_false _
  unfold fieldType Generation.fieldType
  cases hscalar : scalarName? f.type with
  | some name =>
    exact (does_pure _).congr (by rw [hany, isLong_of_scalarName? hscalar, List.any_nil])
  | none =>
    dsimp only
    split
    · next hlong => exact does_note _ (hany.trans hlong)
    · next hshort =>
      have hnone : ([].any fun g : Field => isLong g.type) = [f].any fun g => isLong g.type := by
        rw [hany, Bool.eq_false_iff.2 hshort, List.any_nil]
      split
      · exact (does_pure _).congr hnone
      · have hsymbol := (does_lift (lookup types f.typeName)).bind fun s _ =>
          does_pure (TypeExpr.symbol s)
        exact hsymbol.congr hnone

/-- The type of what a slot holds is noted if it is a long integer. -/
theorem does_slotProperty (found : Slot) :
    Does (slotProperty types options found) (Generation.slotProperty types options found)
      [found.typed] := by
  cases found with
  | plain f => exact (does_fieldType types options f).bind fun t _ => does_pure _
  | map f key value => exact (does_fieldType types options value).bind fun t _ => does_pure _

/-- The field that is typed for a field of a message. -/
def typedField (entries : List (String × Message)) (f : Field) : Field :=
  ((slot entries f).toOption.map Slot.typed).getD f

/-- What is typed for a field is what its slot is typed by. -/
theorem typedField_of_slot {entries : List (String × Message)} {f : Field} {found : Slot}
    (h : slot entries f = .ok found) : typedField entries f = found.typed := by
  rw [typedField, h]
  rfl

/-- The type of a field of a message is noted if the field that is typed is a long integer. -/
theorem does_fieldProperty (entries : List (String × Message)) (f : Field) :
    Does (fieldProperty types options entries f)
      (Generation.fieldProperty types options entries f) [typedField entries f] := by
  refine (does_lift (slot entries f)).bind fun found hfound => ?_
  rw [typedField_of_slot hfound]
  exact does_slotProperty types options found

/-- What is typed for a message that is no map entry. -/
theorem typedFields_message (s : Scope) (name : String) (fields : List Field)
    (nested : List Message) (enums : List Descriptor.Enum) :
    typedFields s ⟨name, fields, nested, enums, false⟩ =
      fields.map (typedField (mapEntries (s.fullName name) nested)) ++
        typedFieldsOfAll (s.inside name) nested := by
  rw [typedFields]
  rfl

/-- The interface of a message. -/
theorem does_interface (s : Scope) (name : String) (fields : List Field) (nested : List Message) :
    Does (interface types options s name fields nested)
      (Generation.interface types options s name fields nested)
      (fields.map (typedField (mapEntries (s.fullName name) nested))) := by
  have hfields := Does.mapM
    (does_fieldProperty types options (mapEntries (s.fullName name) nested)) fields
  rw [← List.map_eq_flatMap] at hfields
  have hinterface := hfields.bind fun properties _ =>
    does_pure (Declaration.interface { name := s.generatedName name, properties })
  rwa [List.append_nil] at hinterface

mutual

/-- The declarations of a message. -/
theorem does_message (s : Scope) (m : Message) :
    Does (message types options s m) (Generation.message types options s m) (typedFields s m) := by
  obtain ⟨name, fields, nested, enums, mapEntry⟩ := m
  unfold message Generation.message
  cases mapEntry with
  | true => exact (does_pure []).congr (by rw [typedFields]; rfl)
  | false =>
    rw [typedFields_message]
    refine (does_interface types options s name fields nested).bind fun own _ => ?_
    have hinner := (does_messages (s.inside name) nested).bind fun inner _ =>
      does_pure (own :: (enums.map (enumeration options (s.inside name)) ++ inner))
    rwa [List.append_nil] at hinner

/-- The declarations of several messages. -/
theorem does_messages (s : Scope) (ms : List Message) :
    Does (messages types options s ms) (Generation.messages types options s ms)
      (typedFieldsOfAll s ms) := by
  cases ms with
  | nil => exact does_pure []
  | cons m ms =>
    unfold messages Generation.messages typedFieldsOfAll
    refine (does_message s m).bind fun first _ => ?_
    have hothers := (does_messages s ms).bind fun others _ => does_pure (first ++ others)
    rwa [List.append_nil] at hothers

end

end Agreement

/-! ## Files -/

/-- Whatever was noted, what comes of a file is what comes of it without a note. -/
theorem result_model (types : TypeMap) (options : GenerationOptions) (f : File) (noted : Bool) :
    ((model types options f).run.run noted).1 = file types options f := by
  have hmessages := does_messages types options (Scope.ofFile f) f.messages
  have hservices := Does.mapM (fun s => does_lift (service types options s)) f.services
  have hnone : (f.services.flatMap fun _ => ([] : List Field)) = [] :=
    List.flatMap_eq_nil_iff.2 fun _ _ => rfl
  rw [hnone] at hservices
  -- The first step forgets the note, so the others start without one.
  change ((messages types options (Scope.ofFile f) f.messages >>= _).run.run false).1 = _
  unfold file
  dsimp only
  cases hinner : Generation.messages types options (Scope.ofFile f) f.messages with
  | error fault =>
    rw [hinner] at hmessages
    exact hmessages.run_bind_error _ false
  | ok inner =>
    rw [hinner] at hmessages
    rw [hmessages.run_bind_ok]
    cases hresults : f.services.mapM (service types options) with
    | error fault =>
      rw [hresults] at hservices
      exact hservices.run_bind_error _ _
    | ok services =>
      rw [hresults] at hservices
      rw [hservices.run_bind_ok, List.any_nil, Bool.or_false, Bool.false_or]
      rfl

/-- What a generator makes of a file does not depend on its note. -/
theorem generate_eq (g : Generator) (f : File) :
    (g.generate f).1 = file g.types g.options f :=
  result_model g.types g.options f g.noted

/-- Generating files leaves the type map and the options. -/
theorem afterAll_eq (g : Generator) (history : List File) :
    (g.afterAll history).types = g.types ∧ (g.afterAll history).options = g.options := by
  unfold afterAll
  induction history generalizing g with
  | nil => exact ⟨rfl, rfl⟩
  | cons f history ih => exact ih (g.generate f).2

/-- Whatever a generator has generated before, what it makes of a file is what is made of it without
a note. -/
theorem generate_afterAll (g : Generator) (history : List File) (f : File) :
    ((g.afterAll history).generate f).1 = file g.types g.options f := by
  obtain ⟨htypes, hoptions⟩ := g.afterAll_eq history
  rw [generate_eq, htypes, hoptions]

end Generator

end ModuleAssembly.Generation
