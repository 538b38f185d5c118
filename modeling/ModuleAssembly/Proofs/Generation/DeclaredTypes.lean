import ModuleAssembly.Generation.Files
import ModuleAssembly.Proofs.Results

/-!
# The declared types

`TypeMap.typesOf` lists the messages and enumerations of a descriptor's file, at any depth, each
with the place where it is declared: the names of the messages around it, the way to it through the
descriptor, and whether it is in a map entry. What the two recursions over messages do is said by
this list. The type map has an entry for each type (`TypeMap.fileEntries_eq_map`), and the generator
makes a declaration of each that is neither a map entry nor inside one
(`Generation.declareAll_typesOf`), in the order of the list. The messages among the types, each with
its scope, are `TypeMap.declaredIn`.
-/

namespace ModuleAssembly

open Descriptor (Enum File Message)

namespace TypeMap

/-! ## Places and types -/

/-- A place for the declaration of a type. -/
structure TypePlace where
  /-- The names of the messages around it, the outermost first. -/
  around : List String
  /-- The way to it from the file: field numbers and indices in turn. -/
  path : List Int
  /-- Whether one of the messages around it is a map entry. -/
  inEntry : Bool

namespace TypePlace

/-- The scope of the declarations at a place of a file. -/
def scope (f : File) (p : TypePlace) : Scope :=
  p.around.foldl Scope.inside (Scope.ofFile f)

/-- The place one index further. -/
def nth (p : TypePlace) (i : Nat) : TypePlace :=
  { p with path := p.path ++ [(i : Int)] }

/-- The places in a message, under a field number. -/
def inside (p : TypePlace) (m : Message) (number : Int) : TypePlace :=
  ⟨p.around ++ [m.name], p.path ++ [number], p.inEntry || m.mapEntry⟩

/-- An index does not change the scope. -/
@[simp] theorem scope_nth (f : File) (p : TypePlace) (i : Nat) : (p.nth i).scope f = p.scope f :=
  rfl

/-- The scope of the places in a message. -/
@[simp] theorem scope_inside (f : File) (p : TypePlace) (m : Message) (number : Int) :
    (p.inside m number).scope f = (p.scope f).inside m.name :=
  List.foldl_append

end TypePlace

/-- What describes a type. -/
inductive TypeBody where
  /-- A message. -/
  | message (m : Message)
  /-- An enumeration. -/
  | enumeration (e : Enum)

/-- A type with the place where it is declared. -/
structure DeclaredType where
  /-- The place. -/
  place : TypePlace
  /-- What describes it. -/
  body : TypeBody

namespace DeclaredType

/-- The name of the type by itself. -/
def name (d : DeclaredType) : String :=
  match d.body with
  | .message m => m.name
  | .enumeration e => e.name

/-- The names of the messages around the type and its own, the outermost first. -/
def names (d : DeclaredType) : List String :=
  d.place.around ++ [d.name]

/-- The full name of the type, with a leading dot. -/
def fullName (f : File) (d : DeclaredType) : String :=
  (d.place.scope f).fullName d.name

/-- The full name of a message. -/
theorem fullName_of_body {f : File} {d : DeclaredType} {m : Message} (h : d.body = .message m) :
    d.fullName f = (d.place.scope f).fullName m.name := by
  rw [fullName, name, h]

/-- The generated name of the type. -/
def generatedName (f : File) (d : DeclaredType) : String :=
  (d.place.scope f).generatedName d.name

/-- The symbol that the type becomes. -/
def symbol (f : File) (d : DeclaredType) : Symbol :=
  ⟨d.generatedName f, modulePath f⟩

/-- Whether the type is generated: it is neither a map entry nor inside one. -/
def isGenerated (d : DeclaredType) : Bool :=
  match d.body with
  | .message m => !(d.place.inEntry || m.mapEntry)
  | .enumeration _ => !d.place.inEntry

/-- Whether the type has a key and a value and nothing else, if it is a map entry. -/
def isPair (d : DeclaredType) : Bool :=
  match d.body with
  | .message m => !m.mapEntry || m.fields.length == 2
  | .enumeration _ => true

/-- Inside a map entry nothing is generated. -/
theorem isGenerated_eq_false {d : DeclaredType} (h : d.place.inEntry = true) :
    d.isGenerated = false := by
  obtain ⟨place, m | e⟩ := d
  · simp [isGenerated, show place.inEntry = true from h]
  · simp [isGenerated, show place.inEntry = true from h]

end DeclaredType

/-! ## Their list -/

/-- The enumerations of a list, from a place on. -/
def enumsAt (p : TypePlace) (enums : List Enum) : List DeclaredType :=
  enums.zipIdx.map fun (e, i) => ⟨p.nth i, .enumeration e⟩

mutual

/-- A message, the enumerations in it, and the messages in it with all that is in them. -/
def typesIn (p : TypePlace) : Message → List DeclaredType
  | ⟨name, fields, nested, enums, mapEntry⟩ =>
    let m : Message := ⟨name, fields, nested, enums, mapEntry⟩
    ⟨p, .message m⟩ :: (enumsAt (p.inside m 4) enums ++ typesInAll (p.inside m 3) 0 nested)

/-- Several messages with all that is in them, from an index on. -/
def typesInAll (p : TypePlace) (i : Nat) : List Message → List DeclaredType
  | [] => []
  | m :: ms => typesIn (p.nth i) m ++ typesInAll p (i + 1) ms

end

/-- The types that a file declares. -/
def typesOf (f : File) : List DeclaredType :=
  enumsAt ⟨[], [5], false⟩ f.enums ++ typesInAll ⟨[], [4], false⟩ 0 f.messages

/-! ### Its members -/

/-- An enumeration in the list stands at its index. -/
theorem mem_enumsAt {p : TypePlace} {enums : List Enum} {d : DeclaredType} :
    d ∈ enumsAt p enums ↔ ∃ i e, enums[i]? = some e ∧ d = ⟨p.nth i, .enumeration e⟩ := by
  unfold enumsAt
  simp only [List.mem_map, Prod.exists, List.mk_mem_zipIdx_iff_getElem?, eq_comm (a := d)]
  exact exists_comm

/-- A type of several messages is one of a message at an index. -/
theorem mem_typesInAll {p : TypePlace} {start : Nat} {ms : List Message} {d : DeclaredType} :
    d ∈ typesInAll p start ms ↔ ∃ i m, ms[i]? = some m ∧ d ∈ typesIn (p.nth (start + i)) m := by
  induction ms generalizing start with
  | nil => simp [typesInAll]
  | cons first ms ih =>
    rw [typesInAll, List.mem_append, ih]
    constructor
    · rintro (hfirst | ⟨i, m, hm, hd⟩)
      · exact ⟨0, first, rfl, hfirst⟩
      · exact ⟨i + 1, m, hm, by rwa [Nat.add_right_comm] at hd⟩
    · rintro ⟨i, m, hm, hd⟩
      cases i with
      | zero =>
        cases hm
        exact .inl hd
      | succ i => exact .inr ⟨i, m, hm, by rwa [Nat.add_right_comm]⟩

/-- A type of a message is the message itself, an enumeration in it, or a type of a message in
it. -/
theorem mem_typesIn {p : TypePlace} {m : Message} {d : DeclaredType} :
    d ∈ typesIn p m ↔ d = ⟨p, .message m⟩ ∨
      (∃ i e, m.enums[i]? = some e ∧ d = ⟨(p.inside m 4).nth i, .enumeration e⟩) ∨
      ∃ i inner, m.nested[i]? = some inner ∧ d ∈ typesIn ((p.inside m 3).nth i) inner := by
  obtain ⟨name, fields, nested, enums, mapEntry⟩ := m
  rw [typesIn, List.mem_cons, List.mem_append, mem_enumsAt, mem_typesInAll]
  simp only [Nat.zero_add]

/-- A type of a file is an enumeration of the file or a type of a message of it. -/
theorem mem_typesOf {f : File} {d : DeclaredType} :
    d ∈ typesOf f ↔
      (∃ (i : Nat) (e : Enum), f.enums[i]? = some e ∧
        d = ⟨⟨[], [5, i], false⟩, .enumeration e⟩) ∨
      ∃ (i : Nat) (m : Message), f.messages[i]? = some m ∧ d ∈ typesIn ⟨[], [4, i], false⟩ m := by
  rw [typesOf, List.mem_append, mem_enumsAt, mem_typesInAll]
  simp only [Nat.zero_add]
  rfl

/-- Induction over the types of a message: what holds of a message itself and of the enumerations in
it, and of a type of it if it holds of that as a type of a message in it, holds of all. -/
theorem typesIn_induction {motive : TypePlace → Message → DeclaredType → Prop}
    (own : ∀ p m, motive p m ⟨p, .message m⟩)
    (enumeration : ∀ p m (i : Nat) e, m.enums[i]? = some e →
      motive p m ⟨(p.inside m 4).nth i, .enumeration e⟩)
    (nested : ∀ p m (i : Nat) inner d, m.nested[i]? = some inner →
      d ∈ typesIn ((p.inside m 3).nth i) inner → motive ((p.inside m 3).nth i) inner d →
        motive p m d)
    {p : TypePlace} {m : Message} {d : DeclaredType} (h : d ∈ typesIn p m) : motive p m d := by
  rcases mem_typesIn.1 h with rfl | ⟨i, e, he, rfl⟩ | ⟨i, inner, hinner, hd⟩
  · exact own p m
  · exact enumeration p m i e he
  · exact nested p m i inner d hinner hd (typesIn_induction own enumeration nested hd)
termination_by sizeOf m
decreasing_by
  have hsmall := List.sizeOf_lt_of_mem (List.mem_of_getElem? hinner)
  obtain ⟨name, fields, nested, enums, mapEntry⟩ := m
  simp only [Message.mk.sizeOf_spec] at hsmall ⊢
  omega

/-- In a map entry are all types that are declared in it. -/
theorem inEntry_of_mem_typesIn {p : TypePlace} {m : Message} (hp : p.inEntry = true)
    {d : DeclaredType} (h : d ∈ typesIn p m) : d.place.inEntry = true := by
  refine typesIn_induction (motive := fun p _ d => p.inEntry = true → d.place.inEntry = true)
    ?_ ?_ ?_ h hp
  · intro p m hp
    exact hp
  · intro p m i e _ hp
    simp [TypePlace.inside, TypePlace.nth, hp]
  · intro p m i inner d _ _ ih hp
    exact ih (by simp [TypePlace.inside, TypePlace.nth, hp])

/-- A message in a declared message is declared. -/
theorem exists_mem_typesIn_of_nested {p q : TypePlace} {m outer inner : Message}
    (houter : ⟨q, .message outer⟩ ∈ typesIn p m) (hinner : inner ∈ outer.nested) :
    ∃ i, ⟨(q.inside outer 3).nth i, .message inner⟩ ∈ typesIn p m := by
  refine typesIn_induction (motive := fun p m d => d = ⟨q, .message outer⟩ →
    ∃ i, ⟨(q.inside outer 3).nth i, .message inner⟩ ∈ typesIn p m) ?_ ?_ ?_ houter rfl
  · rintro p m heq
    cases heq
    obtain ⟨i, hi⟩ := List.mem_iff_getElem?.1 hinner
    exact ⟨i, mem_typesIn.2 (.inr (.inr ⟨i, inner, hi, mem_typesIn.2 (.inl rfl)⟩))⟩
  · rintro p m i e _ heq
    cases heq
  · rintro p m i next d hnext _ ih heq
    obtain ⟨j, hj⟩ := ih heq
    exact ⟨j, mem_typesIn.2 (.inr (.inr ⟨i, next, hnext, hj⟩))⟩

/-- So it is in a file. -/
theorem exists_mem_typesOf_of_nested {f : File} {p : TypePlace} {outer inner : Message}
    (houter : ⟨p, .message outer⟩ ∈ typesOf f) (hinner : inner ∈ outer.nested) :
    ∃ i, ⟨(p.inside outer 3).nth i, .message inner⟩ ∈ typesOf f := by
  rcases mem_typesOf.1 houter with ⟨i, e, -, heq⟩ | ⟨i, m, hm, hd⟩
  · cases heq
  · obtain ⟨j, hj⟩ := exists_mem_typesIn_of_nested hd hinner
    exact ⟨j, mem_typesOf.2 (.inr ⟨i, m, hm, hj⟩)⟩

/-- A type in a map entry is there because a map entry has a message or an enumeration in it. -/
theorem exists_entry_of_mem_typesIn {p : TypePlace} {m : Message} (hp : p.inEntry = false)
    {d : DeclaredType} (h : d ∈ typesIn p m) (hin : d.place.inEntry = true) :
    ∃ q e, ⟨q, .message e⟩ ∈ typesIn p m ∧ e.mapEntry = true ∧
      (e.nested ≠ [] ∨ e.enums ≠ []) := by
  refine typesIn_induction (motive := fun p m d => p.inEntry = false → d.place.inEntry = true →
    ∃ q e, ⟨q, .message e⟩ ∈ typesIn p m ∧ e.mapEntry = true ∧ (e.nested ≠ [] ∨ e.enums ≠ []))
    ?_ ?_ ?_ h hp hin
  · intro p m hp hin
    exact absurd (hin.symm.trans hp) Bool.noConfusion
  · intro p m i e he hp hin
    -- What is around an enumeration is the place of its message and this message itself.
    have hmap : m.mapEntry = true := by
      simpa [TypePlace.inside, TypePlace.nth, hp] using hin
    exact ⟨p, m, mem_typesIn.2 (.inl rfl), hmap,
      .inr (List.ne_nil_of_mem (List.mem_of_getElem? he))⟩
  · intro p m i inner d hinner _ ih hp hin
    -- The outermost map entry around the type is this message, or else it is further inside.
    cases hmap : m.mapEntry with
    | true =>
      exact ⟨p, m, mem_typesIn.2 (.inl rfl), hmap,
        .inl (List.ne_nil_of_mem (List.mem_of_getElem? hinner))⟩
    | false =>
      obtain ⟨q, e, he, hentry⟩ := ih (by simp [TypePlace.inside, TypePlace.nth, hp, hmap]) hin
      exact ⟨q, e, mem_typesIn.2 (.inr (.inr ⟨i, inner, hinner, he⟩)), hentry⟩

/-! ### The messages among them -/

/-- A message with the scope it is declared in. -/
structure Declared where
  /-- The scope. -/
  scope : Scope
  /-- The message. -/
  message : Message

namespace Declared

/-- The full name of the message. -/
def fullName (d : Declared) : String :=
  d.scope.fullName d.message.name

/-- The scope of what is declared in the message. -/
def inner (d : Declared) : Scope :=
  d.scope.inside d.message.name

end Declared

/-- The message that a type of a file is, if it is one. -/
def DeclaredType.message? (f : File) (d : DeclaredType) : Option Declared :=
  match d.body with
  | .message m => some ⟨d.place.scope f, m⟩
  | .enumeration _ => none

/-- The messages of a file. -/
def declaredIn (f : File) : List Declared :=
  (typesOf f).filterMap (DeclaredType.message? f)

/-- A message of a file is one of its types. -/
theorem mem_declaredIn {f : File} {d : Declared} :
    d ∈ declaredIn f ↔ ∃ p, ⟨p, .message d.message⟩ ∈ typesOf f ∧ p.scope f = d.scope := by
  rw [declaredIn, List.mem_filterMap]
  constructor
  · rintro ⟨⟨p, m | e⟩, ht, hd⟩
    · cases hd
      exact ⟨p, ht, rfl⟩
    · cases hd
  · rintro ⟨p, ht, hscope⟩
    exact ⟨_, ht, by rw [DeclaredType.message?, hscope]⟩

/-- A message in a message of a file is one of the file. -/
theorem mem_declaredIn_of_nested {f : File} {d : Declared} (hd : d ∈ declaredIn f) {e : Message}
    (he : e ∈ d.message.nested) : ⟨d.inner, e⟩ ∈ declaredIn f := by
  obtain ⟨p, hp, hscope⟩ := mem_declaredIn.1 hd
  obtain ⟨i, hi⟩ := exists_mem_typesOf_of_nested hp he
  refine mem_declaredIn.2 ⟨_, hi, ?_⟩
  rw [TypePlace.scope_nth, TypePlace.scope_inside, hscope, Declared.inner]

/-- Where map entries have nothing in them, no type of the file is in one. -/
theorem inEntry_eq_false {f : File}
    (hbare : ∀ d ∈ declaredIn f, d.message.mapEntry = true →
      d.message.nested = [] ∧ d.message.enums = [])
    {d : DeclaredType} (hd : d ∈ typesOf f) : d.place.inEntry = false := by
  rcases mem_typesOf.1 hd with ⟨i, e, -, rfl⟩ | ⟨i, m, hm, hd⟩
  · rfl
  · refine Bool.eq_false_iff.2 fun hin => ?_
    obtain ⟨q, e, he, hmap, hfull⟩ := exists_entry_of_mem_typesIn rfl hd hin
    obtain ⟨hnested, henums⟩ := hbare ⟨q.scope f, e⟩
      (mem_declaredIn.2 ⟨q, mem_typesOf.2 (.inr ⟨i, m, hm, he⟩), rfl⟩) hmap
    exact hfull.elim (absurd hnested) (absurd henums)

/-! ### The entries of the type map -/

/-- The entries of enumerations. -/
theorem enumEntries_eq_map (f : File) (p : TypePlace) (enums : List Enum) :
    enumEntries (modulePath f) (p.scope f) enums =
      (enumsAt p enums).map fun d => (d.fullName f, d.symbol f) := by
  unfold enumEntries enumsAt
  rw [List.map_map]
  conv => lhs; rw [← List.zipIdx_map_fst 0 enums, List.map_map]
  rfl

mutual

/-- The type map has an entry for each type of a message. -/
theorem messageEntries_eq_map (f : File) (p : TypePlace) (m : Message) :
    messageEntries (modulePath f) (p.scope f) m =
      (typesIn p m).map fun d => (d.fullName f, d.symbol f) := by
  obtain ⟨name, fields, nested, enums, mapEntry⟩ := m
  have henums := enumEntries_eq_map f (p.inside ⟨name, fields, nested, enums, mapEntry⟩ 4) enums
  have hnested :=
    messagesEntries_eq_map f (p.inside ⟨name, fields, nested, enums, mapEntry⟩ 3) 0 nested
  rw [TypePlace.scope_inside] at henums hnested
  rw [messageEntries, henums, hnested, typesIn, List.map_cons, List.map_append]
  rfl

/-- So it has for each type of several messages. -/
theorem messagesEntries_eq_map (f : File) (p : TypePlace) (i : Nat) (ms : List Message) :
    messagesEntries (modulePath f) (p.scope f) ms =
      (typesInAll p i ms).map fun d => (d.fullName f, d.symbol f) := by
  cases ms with
  | nil => rfl
  | cons m ms =>
    have hfirst := messageEntries_eq_map f (p.nth i) m
    rw [TypePlace.scope_nth] at hfirst
    rw [messagesEntries, typesInAll, List.map_append, hfirst,
      messagesEntries_eq_map f p (i + 1) ms]

end

/-- The entries of a file are those of its types. -/
theorem fileEntries_eq_map (f : File) :
    fileEntries f = (typesOf f).map fun d => (d.fullName f, d.symbol f) := by
  have henums := enumEntries_eq_map f ⟨[], [5], false⟩ f.enums
  have hmessages := messagesEntries_eq_map f ⟨[], [4], false⟩ 0 f.messages
  unfold fileEntries typesOf
  rw [List.map_append, ← henums, ← hmessages]
  rfl

end TypeMap

/-! ## The generated declarations -/

namespace Generation

open TypeMap (DeclaredType TypePlace Scope enumsAt typesIn typesInAll typesOf)

variable (types : TypeMap) (options : GenerationOptions) (f : File)

/-- What the generator makes of a type. -/
def declare (d : DeclaredType) : Except Fault Declaration :=
  match d.body with
  | .message m => interface types options (d.place.scope f) m.name m.fields m.nested
  | .enumeration e => .ok (enumeration options (d.place.scope f) e)

/-- What the generator makes of several types: nothing of those that are not generated. -/
def declareAll (ds : List DeclaredType) : Except Fault (List Declaration) :=
  (ds.filter DeclaredType.isGenerated).mapM (declare types options f)

/-- The declarations of two lists of types come one after the other. -/
theorem declareAll_append (ds es : List DeclaredType) :
    declareAll types options f (ds ++ es) = do
      let first ← declareAll types options f ds
      let others ← declareAll types options f es
      return first ++ others := by
  rw [declareAll, List.filter_append, List.mapM_append]
  rfl

/-- Enumerations are always made. -/
theorem declareAll_enumsAt {p : TypePlace} (hp : p.inEntry = false) (enums : List Enum) :
    declareAll types options f (enumsAt p enums) =
      .ok (enums.map (enumeration options (p.scope f))) := by
  have hall : (enumsAt p enums).filter DeclaredType.isGenerated = enumsAt p enums := by
    refine List.filter_eq_self.2 fun d hd => ?_
    obtain ⟨i, e, -, rfl⟩ := TypeMap.mem_enumsAt.1 hd
    simp [DeclaredType.isGenerated, TypePlace.nth, hp]
  have hpure : (enums.zipIdx.map fun x => enumeration options (p.scope f) x.1) =
      enums.map (enumeration options (p.scope f)) := by
    conv => rhs; rw [← List.zipIdx_map_fst 0 enums, List.map_map]
    rfl
  rw [declareAll, hall, enumsAt, List.mapM_map, ← hpure]
  exact List.mapM_pure

/-- Of a map entry and the types in it nothing is made. -/
theorem declareAll_entry (p : TypePlace) {m : Message} (hm : m.mapEntry = true) :
    declareAll types options f (typesIn p m) = .ok [] := by
  have hnone : (typesIn p m).filter DeclaredType.isGenerated = [] := by
    refine List.filter_eq_nil_iff.2 fun d hd => ?_
    rcases TypeMap.mem_typesIn.1 hd with rfl | ⟨i, e, -, rfl⟩ | ⟨i, inner, -, hd⟩
    · simp [DeclaredType.isGenerated, hm]
    · simp [DeclaredType.isGenerated, TypePlace.inside, TypePlace.nth, hm]
    · have hin := TypeMap.inEntry_of_mem_typesIn (by simp [TypePlace.inside, TypePlace.nth, hm]) hd
      simp [DeclaredType.isGenerated_eq_false hin]
  rw [declareAll, hnone]
  rfl

mutual

/-- The generator makes the declarations of the types of a message. -/
theorem message_eq_declareAll {p : TypePlace} (hp : p.inEntry = false) (m : Message) :
    message types options (p.scope f) m = declareAll types options f (typesIn p m) := by
  obtain ⟨name, fields, nested, enums, mapEntry⟩ := m
  cases mapEntry with
  | true => exact (declareAll_entry types options f p rfl).symm
  | false =>
    have hinside : ∀ number, (p.inside ⟨name, fields, nested, enums, false⟩ number).inEntry =
        false := fun number => by simp [TypePlace.inside, hp]
    have hown : (DeclaredType.mk p (.message ⟨name, fields, nested, enums, false⟩)).isGenerated =
        true := by simp [DeclaredType.isGenerated, hp]
    have henums := declareAll_enumsAt types options f (hinside 4) enums
    have hnested := messages_eq_declareAll (hinside 3) 0 nested
    have hrest := declareAll_append types options f
      (enumsAt (p.inside ⟨name, fields, nested, enums, false⟩ 4) enums)
      (typesInAll (p.inside ⟨name, fields, nested, enums, false⟩ 3) 0 nested)
    rw [henums, ← hnested, TypePlace.scope_inside, TypePlace.scope_inside] at hrest
    rw [typesIn, declareAll, List.filter_cons_of_pos hown, List.mapM_cons]
    rw [declareAll] at hrest
    rw [hrest, message]
    simp only [bind_assoc, pure_bind]
    rfl

/-- The generator makes the declarations of the types of several messages. -/
theorem messages_eq_declareAll {p : TypePlace} (hp : p.inEntry = false) (i : Nat)
    (ms : List Message) :
    messages types options (p.scope f) ms = declareAll types options f (typesInAll p i ms) := by
  cases ms with
  | nil => rfl
  | cons m ms =>
    have hfirst := message_eq_declareAll (p := p.nth i) hp m
    rw [TypePlace.scope_nth] at hfirst
    rw [messages, typesInAll, declareAll_append, hfirst, messages_eq_declareAll hp (i + 1) ms]

end

/-- The enumerations of a file are made, and then its messages with all that is in them. -/
theorem declareAll_typesOf :
    declareAll types options f (typesOf f) =
      (messages types options (Scope.ofFile f) f.messages).map
        (f.enums.map (enumeration options (Scope.ofFile f)) ++ ·) := by
  have henums := declareAll_enumsAt types options f (p := ⟨[], [5], false⟩) rfl f.enums
  have hmessages := messages_eq_declareAll types options f (p := ⟨[], [4], false⟩) rfl 0 f.messages
  rw [typesOf, declareAll_append, henums, ← hmessages]
  change (do
    let others ← messages types options (Scope.ofFile f) f.messages
    return f.enums.map (enumeration options (Scope.ofFile f)) ++ others) = _
  cases messages types options (Scope.ofFile f) f.messages with
  | error fault => rfl
  | ok inner => rfl

end Generation

end ModuleAssembly
