import ModuleAssembly.Proofs.Validation.Blocks

/-!
# Types in documents

A type that is read from a document, in its short form or in its long one, is read back from its
long form (`TypeExpr.areReadBack`). It lies as deep there as it did before: both forms of a
type are on one level, and its long form has the long forms of its parts in the same places.

The readers of types go through a mapping once for all its fields; `TypeField.find?_fieldsOf` says
that each field is read from its value all the same.
-/

namespace ModuleAssembly

/-- What holds of scalars, of lists whose items it holds of, and of mappings whose values it holds
of, holds of every value. -/
theorem Value.inductionOn {motive : Value → Prop} (v : Value)
    (scalar : ∀ s, motive (.scalar s))
    (list : ∀ vs, (∀ v ∈ vs, motive v) → motive (.list vs))
    (mapping : ∀ entries, (∀ entry ∈ entries, motive entry.2) → motive (.mapping entries)) :
    motive v :=
  @Value.rec motive (fun vs => ∀ v ∈ vs, motive v)
    (fun entries => ∀ entry ∈ entries, motive entry.2) (fun entry => motive entry.2)
    scalar list mapping
    (fun _ h => absurd h List.not_mem_nil)
    (fun _ _ hv hvs => List.forall_mem_cons.2 ⟨hv, hvs⟩)
    (fun _ h => absurd h List.not_mem_nil)
    (fun _ _ hentry hentries => List.forall_mem_cons.2 ⟨hentry, hentries⟩)
    (fun _ _ hv => hv) v

/-! ## The readers of types -/

/-- A value as a field of a type. -/
def TypeField.ofValue (v : Value) : TypeField :=
  ⟨v, fun n => TypeExpr.ofValueAt n v, fun n => TypeExpr.listOfValueAt n v⟩

/-- A field of a type has the value of the field of the mapping. -/
theorem TypeField.find?_fieldsOf (entries : Entries) (name : String) :
    find? (TypeExpr.fieldsOf entries) name = (entries.field? name).map ofValue := by
  unfold find? Entries.field?
  induction entries with
  | nil => rfl
  | cons entry entries ih =>
    obtain ⟨key, v⟩ := entry
    have hcons : TypeExpr.fieldsOf ((key, v) :: entries) =
        (key, ofValue v) :: TypeExpr.fieldsOf entries := rfl
    rw [hcons, List.find?_cons, List.find?_cons]
    cases h : key == .text name with
    | true => rfl
    | false => exact ih

namespace TypeExpr

/-- Several types are read one by one. -/
theorem eachOfAt_eq_map (n : Nesting) (vs : List Value) : eachOfAt n vs = vs.map (ofValueAt n) := by
  induction vs with
  | nil => rfl
  | cons v vs ih => rw [eachOfAt, ih, List.map_cons]

/-- A list of types is read as a list. -/
theorem listOfValueAt_eq (n : Nesting) (v : Value) :
    listOfValueAt n v = v.readList (ofValueAt n) := by
  cases v with
  | scalar s => rfl
  | list vs => rw [listOfValueAt, eachOfAt_eq_map, Value.readList]
  | mapping entries => rfl

/-- The long forms of several types are those of each. -/
theorem toValues_eq_map (ts : List TypeExpr) : toValues ts = ts.map toValue := by
  induction ts with
  | nil => rfl
  | cons t ts ih => rw [toValues, ih, List.map_cons]

/-- Whether a type is read back from its long form at a place. -/
def ReadsBack (n : Nesting) (t : TypeExpr) : Prop :=
  ofValueAt n t.toValue = .valid t

end TypeExpr

/-! ## Reading long forms -/

/-- Nothing is too deep inside a level that is allowed. -/
theorem Nesting.allow_of_le {α : Type} {inside : Nesting} (h : inside.level ≤ limit)
    (result : Validated α) : inside.allow result = result :=
  if_pos h

/-- Items that are read one by one are the items, if each is read as itself. -/
theorem Validated.itemsFrom_map_valid {α : Type} (xs : List α) (start : Nat) :
    itemsFrom start (xs.map valid) = valid xs := by
  induction xs generalizing start with
  | nil => rfl
  | cons x xs ih =>
    rw [List.map_cons, itemsFrom, ih]
    rfl

/-- A list is read back from the documents of its items, if each of them is. -/
theorem Value.readList_map {α : Type} {read : Value → Validated α} {toValue : α → Value}
    {xs : List α} (h : ∀ x ∈ xs, read (toValue x) = .valid x) :
    (Value.list (xs.map toValue)).readList read = .valid xs := by
  have hitems : (xs.map toValue).map read = xs.map .valid := by
    rw [List.map_map]
    exact List.map_congr_left h
  rw [readList, hitems]
  exact Validated.itemsFrom_map_valid xs 0

namespace TypeExpr

/-- A list of types is read back from their long forms, if each of them is. -/
theorem listOfValueAt_toValues {n : Nesting} {ts : List TypeExpr} (h : ∀ t ∈ ts, ReadsBack n t) :
    listOfValueAt n (.list (toValues ts)) = .valid ts := by
  rw [listOfValueAt_eq, toValues_eq_map]
  exact Value.readList_map h

/-- A symbol is read back where a type without parts may stand. -/
theorem readsBack_symbol {n : Nesting} (h : n.simple.level ≤ Nesting.limit) (s : Symbol) :
    ReadsBack n (.symbol s) := by
  have hread : ofValueAt n (toValue (.symbol s)) =
      (n.simple.allow (.valid (.symbol s))).inField "symbol" := rfl
  rw [ReadsBack, hread, Nesting.allow_of_le h]
  rfl

/-- So is a bare name. -/
theorem readsBack_named {n : Nesting} (h : n.simple.level ≤ Nesting.limit) (name : String) :
    ReadsBack n (.named name) := by
  have hread : ofValueAt n (toValue (.named name)) =
      (n.simple.allow (.valid (.named name))).inField "named" := rfl
  rw [ReadsBack, hread, Nesting.allow_of_le h]
  rfl

/-- A union is read back if its choices are, inside it. -/
theorem readsBack_union {n : Nesting} (h : (n.compound .union).level ≤ Nesting.limit)
    {first : TypeExpr} {others : List TypeExpr}
    (hchoices : ∀ t ∈ first :: others, ReadsBack (n.compound .union) t) :
    ReadsBack n (.union first others) := by
  have hread : ofValueAt n (toValue (.union first others)) =
      ((n.compound .union).allow (((listOfValueAt (n.compound .union)
        (.list (toValues (first :: others)))).inField "choices").andThen ofChoices)).inField
          "union" := rfl
  rw [ReadsBack, hread, Nesting.allow_of_le h, listOfValueAt_toValues hchoices]
  rfl

/-- An array is read back if its element is, inside it. -/
theorem readsBack_array {n : Nesting} (h : (n.compound .array).level ≤ Nesting.limit)
    {element : TypeExpr} (helement : ReadsBack (n.compound .array) element) :
    ReadsBack n (.array element) := by
  have hread : ofValueAt n (toValue (.array element)) =
      ((n.compound .array).allow (array <$>
        (ofValueAt (n.compound .array) element.toValue).inField "element")).inField "array" := rfl
  rw [ReadsBack, hread, Nesting.allow_of_le h, helement]
  rfl

/-- A generic type is read back if its base and its arguments are, inside it. -/
theorem readsBack_generic {n : Nesting} (h : (n.compound .generic).level ≤ Nesting.limit)
    {base : TypeExpr} {args : List TypeExpr} (hbase : ReadsBack (n.compound .generic) base)
    (hargs : ∀ t ∈ args, ReadsBack (n.compound .generic) t) : ReadsBack n (.generic base args) := by
  have hread : ofValueAt n (toValue (.generic base args)) =
      ((n.compound .generic).allow (generic <$>
        (ofValueAt (n.compound .generic) base.toValue).inField "base" <*>
          (listOfValueAt (n.compound .generic) (.list (toValues args))).inField "args")).inField
            "generic" := rfl
  rw [ReadsBack, hread, Nesting.allow_of_le h, hbase, listOfValueAt_toValues hargs]
  rfl

end TypeExpr

/-! ## What is read as a type -/

/-- What is allowed at a level satisfies what it does there. -/
theorem Nesting.satisfies_allow {α : Type} {inside : Nesting} {r : Validated α} {P : α → Prop}
    (h : inside.level ≤ limit → r.Satisfies P) : (inside.allow r).Satisfies P := by
  unfold allow
  split
  · next hlevel => exact h hlevel
  · exact Validated.satisfies_invalid _ P

/-- A required field of a type satisfies what its reader ensures of the value that it has. -/
theorem TypeField.satisfies_required {α : Type} {entries : Entries} {name : String}
    {read : TypeField → Validated α} {P : α → Prop}
    (h : ∀ entry ∈ entries, (read (ofValue entry.2)).Satisfies P) :
    (required (TypeExpr.fieldsOf entries) name read).Satisfies P := by
  unfold required
  rw [find?_fieldsOf]
  refine Validated.Satisfies.under ?_ (.field name)
  cases hfield : entries.field? name with
  | none => exact Validated.satisfies_invalid _ P
  | some v =>
    obtain ⟨entry, hentry, rfl⟩ := Option.map_eq_some_iff.1 hfield
    exact h entry (List.mem_of_find?_eq_some hentry)

namespace TypeExpr

/-- A short form stands for a symbol or for a bare name. -/
theorem cases_of_ofShorthand? {s : String} {t : TypeExpr} (h : ofShorthand? s = some t) :
    (∃ r, t = .symbol r) ∨ ∃ name, t = .named name := by
  unfold ofShorthand? at h
  split at h
  · obtain ⟨r, -, rfl⟩ := Option.map_eq_some_iff.1 h
    exact .inl ⟨r, rfl⟩
  · exact .inr ⟨s, (Option.some.inj h).symm⟩

/-- What is read from a short form is read back from its long one. -/
theorem satisfies_ofText (n : Nesting) (s : String) : (ofText n s).Satisfies (ReadsBack n) := by
  unfold ofText
  cases hshort : ofShorthand? s with
  | none => exact Validated.satisfies_invalid _ _
  | some t =>
    refine Validated.Satisfies.under (Nesting.satisfies_allow fun hlevel => ?_) _
    rcases cases_of_ofShorthand? hshort with ⟨r, rfl⟩ | ⟨name, rfl⟩
    · exact Validated.satisfies_valid (readsBack_symbol hlevel r)
    · exact Validated.satisfies_valid (readsBack_named hlevel name)

/-- So is what is read from the choices of a union. -/
theorem satisfies_ofChoices {n : Nesting} (h : (n.compound .union).level ≤ Nesting.limit)
    {ts : List TypeExpr} (hts : ∀ t ∈ ts, ReadsBack (n.compound .union) t) :
    (ofChoices ts).Satisfies (ReadsBack n) := by
  cases ts with
  | nil => exact Validated.satisfies_invalid _ _
  | cons first others => exact Validated.satisfies_valid (readsBack_union h hts)

/-- Whether what is read from a value, as a type or as a list of types, is read back wherever it
lies. -/
def AreReadBack (v : Value) : Prop :=
  ∀ n, (ofValueAt n v).Satisfies (ReadsBack n) ∧
    (listOfValueAt n v).Satisfies fun ts => ∀ t ∈ ts, ReadsBack n t

/-- What is read from the fields of a kind is read back, if what is read from each field is. -/
theorem satisfies_ofKind? {n : Nesting} {entries : Entries} {kind : String}
    {result : Validated TypeExpr} (h : ∀ entry ∈ entries, AreReadBack entry.2)
    (hkind : ofKind? n (fieldsOf entries) kind = some result) : result.Satisfies (ReadsBack n) := by
  have htype : ∀ (inside : Nesting) (name : String),
      (TypeField.required (fieldsOf entries) name (·.asType inside)).Satisfies
        (ReadsBack inside) := fun inside name =>
    TypeField.satisfies_required fun entry hentry => (h entry hentry inside).1
  have htypes : ∀ (inside : Nesting) (name : String),
      (TypeField.required (fieldsOf entries) name (·.asTypes inside)).Satisfies
        fun ts => ∀ t ∈ ts, ReadsBack inside t := fun inside name =>
    TypeField.satisfies_required fun entry hentry => (h entry hentry inside).2
  unfold ofKind? at hkind
  split at hkind
  · cases hkind
    refine Nesting.satisfies_allow fun hlevel => .any (.start fun name module => ?_)
    exact readsBack_symbol hlevel ⟨name, module⟩
  · cases hkind
    exact Nesting.satisfies_allow fun hlevel => .start fun name => readsBack_named hlevel name
  · cases hkind
    refine Nesting.satisfies_allow fun hlevel => ?_
    exact (htypes _ "choices").andThen fun ts hts => satisfies_ofChoices hlevel hts
  · cases hkind
    refine Nesting.satisfies_allow fun hlevel => ?_
    exact (htype _ "element").map fun t ht => readsBack_array hlevel ht
  · cases hkind
    refine Nesting.satisfies_allow fun hlevel => ?_
    have hbase := htype (n.compound .generic) "base"
    refine .seq (hbase.map fun base hbase args hargs => readsBack_generic hlevel hbase hargs) ?_
    rw [TypeField.find?_fieldsOf]
    cases hfield : entries.field? "args" with
    | none => exact Validated.satisfies_valid (by simp)
    | some v =>
      obtain ⟨entry, hentry, rfl⟩ := Option.map_eq_some_iff.1 hfield
      exact (h entry (List.mem_of_find?_eq_some hentry) _).2.under (.field "args")
  · cases hkind

/-- What is read from the fields of a mapping is read back, if what is read from each field is. -/
theorem satisfies_ofFields {entries : Entries} (h : ∀ entry ∈ entries, AreReadBack entry.2)
    (n : Nesting) : (ofFields n (fieldsOf entries)).Satisfies (ReadsBack n) := by
  unfold ofFields
  split
  · exact Validated.satisfies_invalid _ _
  · split
    · next result hkind => exact (satisfies_ofKind? h hkind).under _
    · exact Validated.satisfies_invalid _ _
  · exact Validated.satisfies_invalid _ _

/-- What is read from a value as a type, or as a list of types, is read back. -/
theorem areReadBack (v : Value) : AreReadBack v := by
  induction v using Value.inductionOn with
  | scalar s =>
    intro n
    refine ⟨?_, Validated.satisfies_invalid _ _⟩
    cases s with
    | text s => exact satisfies_ofText n s
    | null | bool _ | int _ | float _ | moment _ => exact Validated.satisfies_invalid _ _
  | list vs ih =>
    intro n
    refine ⟨Validated.satisfies_invalid _ _, ?_⟩
    rw [listOfValueAt, eachOfAt_eq_map]
    refine Validated.Satisfies.itemsFrom (fun r hr => ?_) 0
    obtain ⟨v, hv, rfl⟩ := List.mem_map.1 hr
    exact (ih v hv n).1
  | mapping entries ih =>
    exact fun n => ⟨satisfies_ofFields ih n, Validated.satisfies_invalid _ _⟩

/-- What is read as a type that lies in no other is read back from its long form. -/
theorem readBack (v : Value) :
    (ofValue v).Satisfies fun t => ofValue t.toValue = .valid t :=
  (areReadBack v .outermost).1

end TypeExpr

end ModuleAssembly
