import ModuleAssembly.Proofs.Assembly.Expansion
import ModuleAssembly.Proofs.Validation.Slots

/-!
# Documents that are read alike

Two values are read alike as a part of a file (`Part.ReadAlike`) if the same type is read from them,
or the same part up to texts that stand for types, which an expansion replaces. Here the readers of
the models are followed once more, with two documents side by side: what is read from the first one
is read from the second one up to a relation (`Validated.Follows`). So mappings whose fields are
read alike (`Part.FieldsAlike`) are read alike themselves, as each of the models.
-/

namespace ModuleAssembly

namespace Validated

variable {α β : Type}

/-- Whether, if something was read, something related was read in the other place. -/
def Follows (r : Validated α) (R : α → α → Prop) (r' : Validated α) : Prop :=
  ∀ a, r = .valid a → ∃ b, r' = .valid b ∧ R a b

namespace Follows

variable {R : α → α → Prop} {S : β → β → Prop}

/-- What was read is followed by itself. -/
theorem refl (r : Validated α) (h : ∀ a, R a a := by exact fun _ => rfl) : r.Follows R r :=
  fun a ha => ⟨a, ha, h a⟩

/-- Nothing follows from errors. -/
theorem of_invalid (issues : List Issue) (r' : Validated α) : (invalid issues).Follows R r' :=
  fun _ ha => nomatch ha

/-- Related values follow each other. -/
theorem of_valid {a b : α} (h : R a b) : (valid a).Follows R (valid b) := by
  intro a' ha
  cases ha
  exact ⟨b, rfl, h⟩

/-- What was read is followed by itself, together with what holds of it. -/
theorem of_satisfies {r : Validated α} {P : α → Prop} (h : r.Satisfies P) :
    r.Follows (fun a b => b = a ∧ P a) r :=
  fun a ha => ⟨a, ha, rfl, h a ha⟩

/-- What follows is a matter of what was read. -/
theorem mono {R' : α → α → Prop} {r r' : Validated α} (h : r.Follows R r')
    (hR : ∀ a b, R a b → R' a b) : r.Follows R' r' := by
  intro a ha
  obtain ⟨b, hb, hab⟩ := h a ha
  exact ⟨b, hb, hR a b hab⟩

/-- A function turns related values into related values. -/
theorem map {r r' : Validated α} {f : α → β} (h : r.Follows R r')
    (hf : ∀ a b, R a b → S (f a) (f b)) : (r.map f).Follows S (r'.map f) := by
  cases r with
  | invalid issues => exact of_invalid issues _
  | valid a =>
    obtain ⟨b, rfl, hab⟩ := h a rfl
    exact of_valid (hf a b hab)

/-- A constructor may use how its next fields are related. -/
theorem seq {f f' : Validated (α → β)} {r r' : Validated α}
    (hf : f.Follows (fun g g' => ∀ a b, R a b → S (g a) (g' b)) f') (hr : r.Follows R r') :
    (f <*> r).Follows S (f' <*> r') := by
  cases f with
  | invalid issues =>
    cases r with
    | valid a => exact of_invalid issues _
    | invalid more => exact of_invalid (issues ++ more) _
  | valid g =>
    obtain ⟨g', rfl, hg⟩ := hf g rfl
    cases r with
    | invalid issues => exact of_invalid issues _
    | valid a =>
      obtain ⟨b, rfl, hab⟩ := hr a rfl
      exact of_valid (hg a b hab)

/-- A constructor may have the same next field. -/
theorem keep {f f' : Validated (α → β)} {r : Validated α}
    (hf : f.Follows (fun g g' => ∀ a, S (g a) (g' a)) f') : (f <*> r).Follows S (f' <*> r) :=
  seq (R := Eq) (hf.mono fun _ _ hg a _ hab => hab ▸ hg a) (refl r)

/-- A constructor is the same before it is applied. -/
theorem start {r : Validated α} {f : α → β} (hf : ∀ a, S (f a) (f a)) :
    (f <$> r).Follows S (f <$> r) :=
  (refl r : r.Follows Eq r).map fun a _ hab => hab ▸ hf a

/-- What goes on with related values may use how they are related. -/
theorem andThen {r r' : Validated α} {f : α → Validated β} (h : r.Follows R r')
    (hf : ∀ a b, R a b → (f a).Follows S (f b)) : (r.andThen f).Follows S (r'.andThen f) := by
  cases r with
  | invalid issues => exact of_invalid issues _
  | valid a =>
    obtain ⟨b, rfl, hab⟩ := h a rfl
    exact hf a b hab

/-- What is read one step further is related as it is there. -/
theorem under {r r' : Validated α} (h : r.Follows R r') (key : Key) :
    (r.under key).Follows R (r'.under key) := by
  cases r with
  | invalid issues => exact of_invalid _ _
  | valid a =>
    obtain ⟨b, rfl, hab⟩ := h a rfl
    exact of_valid hab

/-- Items that were read one by one agree in what is made of each of them. -/
theorem itemsFrom {γ δ : Type} {read read' : γ → Validated α} {key : Nat → α → δ} {xs : List γ}
    (h : ∀ i x, xs[i]? = some x → (read x).Follows (fun a b => key i b = key i a) (read' x))
    (start : Nat) :
    (itemsFrom start (xs.map read)).Follows (fun as bs => bs.mapIdx key = as.mapIdx key)
      (itemsFrom start (xs.map read')) := by
  induction xs generalizing key start with
  | nil => exact of_valid rfl
  | cons x xs ih =>
    have hfirst := (h 0 x rfl).under (.index start)
    have hrest : (Validated.itemsFrom (start + 1) (xs.map read)).Follows
        (fun as bs => bs.mapIdx (fun i => key (i + 1)) = as.mapIdx fun i => key (i + 1))
        (Validated.itemsFrom (start + 1) (xs.map read')) :=
      ih (fun i y hy => h (i + 1) y hy) (start + 1)
    refine seq (hfirst.map fun a b hab as bs hrest => ?_) hrest
    rw [List.mapIdx_cons, List.mapIdx_cons, hab, hrest]

end Follows

end Validated

/-! ## Values that are read alike -/

namespace Part

/-- Whether two values are read alike as a part, as far as the first one is read as such. -/
def ReadAlike : Part → Value → Value → Prop
  | .other, v, w => w = v
  | .type, v, w =>
    (w = .null ↔ v = .null) ∧ ∀ n, TypeExpr.ofValueAt n w = TypeExpr.ofValueAt n v
  | .argument bound, v, w =>
    (Argument.ofValue v).Follows (fun a b => b.expandedFor bound = a.expandedFor bound)
      (Argument.ofValue w)
  | .block, v, w =>
    (w = .null ↔ v = .null) ∧
      (CodeBlock.ofValue v).Follows (fun b c => c.expanded = b.expanded) (CodeBlock.ofValue w)
  | .property, v, w =>
    (Property.ofValue v).Follows (fun p q => q.expanded = p.expanded) (Property.ofValue w)
  | .parameter, v, w => Parameter.ofValue w = Parameter.ofValue v
  | .function, v, w =>
    (Function.ofValue v).Follows (fun f g => g.expanded = f.expanded) (Function.ofValue w)
  | .member, v, w =>
    (Member.ofValue v).Follows (fun m n => n.expanded = m.expanded) (Member.ofValue w)
  | .file, v, w =>
    (FileModel.ofValue v).Follows (fun f g => g.expanded = f.expanded) (FileModel.ofValue w)
  | .list item, v, w =>
    w = v ∨ ∃ changes : List (Value × Value), v = .list (changes.map Prod.fst) ∧
      w = .list (changes.map Prod.snd) ∧
        ∀ i c, changes[i]? = some c → (item i).ReadAlike c.1 c.2

/-- A value is read like itself. -/
theorem readAlike_refl (p : Part) (v : Value) : p.ReadAlike v v := by
  cases p with
  | other | parameter => exact rfl
  | type => exact ⟨Iff.rfl, fun _ => rfl⟩
  | argument _ | property | function | member | file => exact .refl _
  | block => exact ⟨Iff.rfl, .refl _⟩
  | list item => exact .inl rfl

/-- From lists that are read alike the same items are read, if the same is from each of them. -/
theorem readAlike_each {item : Part} {α : Type} {read : Value → Validated α}
    (hitem : ∀ v w, item.ReadAlike v w → read w = read v) {v w : Value}
    (h : (each item).ReadAlike v w) : w.readList read = v.readList read := by
  rcases h with rfl | ⟨changes, rfl, rfl, hchanges⟩
  · rfl
  · have hmap : (changes.map Prod.snd).map read = (changes.map Prod.fst).map read := by
      rw [List.map_map, List.map_map]
      refine List.map_congr_left fun c hc => ?_
      obtain ⟨i, hi⟩ := List.mem_iff_getElem?.1 hc
      exact hitem c.1 c.2 (hchanges i c hi)
    rw [Value.readList, hmap, Value.readList]

/-- Whether the fields of two mappings are read alike, each as the part that is listed for it. -/
def FieldsAlike (fields : List (String × Part)) (entries entries' : Entries) : Prop :=
  ∀ name, Option.Rel ((fields.lookup name).getD .other).ReadAlike (entries.field? name)
    (entries'.field? name)

end Part

/-! ## Readers of fields -/

/-- The text that is read from a required field is the text of the field. -/
theorem Entries.satisfies_required_text (entries : Entries) (name : String) :
    (entries.required name Value.readText).Satisfies fun s => s = entries.text name := by
  unfold required text
  refine Validated.Satisfies.under ?_ (.field name)
  cases entries.field? name with
  | none => exact Validated.satisfies_invalid _ _
  | some v =>
    rw [Option.elim_some]
    unfold Value.readText
    split
    · exact Validated.satisfies_valid rfl
    · exact Validated.satisfies_invalid _ _

/-- Values that are null together and are read alike are read alike where they may be null. -/
theorem Value.readOptional_congr {α : Type} {read : Value → Validated α} {v w : Value}
    (hnull : w = .null ↔ v = .null) (hread : read w = read v) :
    w.readOptional read = v.readOptional read := by
  by_cases hv : v = .null
  · rw [hv, hnull.2 hv]
  · rw [readOptional, readOptional, hread]
    · exact hv
    · exact fun hw => hv (hnull.1 hw)

/-- What follows what is read from values that are null together follows it where they may be
null. -/
theorem Value.readOptional_follows {α β : Type} {read : Value → Validated α} {key : α → β}
    {v w : Value} (hnull : w = .null ↔ v = .null)
    (hread : (read v).Follows (fun a b => key b = key a) (read w)) :
    (v.readOptional read).Follows (fun o o' => o'.map key = o.map key) (w.readOptional read) := by
  by_cases hv : v = .null
  · rw [hv, hnull.2 hv]
    exact .of_valid rfl
  · rw [readOptional, readOptional]
    · exact hread.map fun a b hab => congrArg some hab
    · exact fun hw => hv (hnull.1 hw)
    · exact hv

namespace Part.FieldsAlike

variable {fields : List (String × Part)} {entries entries' : Entries} {item : Part} {α β : Type}
  {read : Value → Validated α} {key : α → β}

/-- A field is in neither mapping, or its values are read alike. -/
theorem field?_cases (h : FieldsAlike fields entries entries') (name : String)
    {p : Part} (hpart : (fields.lookup name).getD .other = p) :
    (entries.field? name = none ∧ entries'.field? name = none) ∨
      ∃ v w, entries.field? name = some v ∧ entries'.field? name = some w ∧ p.ReadAlike v w := by
  have hname := h name
  rw [hpart] at hname
  generalize entries.field? name = o at hname ⊢
  generalize entries'.field? name = o' at hname ⊢
  cases hname with
  | none => exact .inl ⟨rfl, rfl⟩
  | some hvw => exact .inr ⟨_, _, rfl, rfl, hvw⟩

/-- A field that no type stands in is the same. -/
theorem field?_eq (h : FieldsAlike fields entries entries') (name : String)
    (hother : (fields.lookup name).getD .other = .other) :
    entries'.field? name = entries.field? name := by
  rcases h.field?_cases name hother with ⟨hv, hw⟩ | ⟨v, w, hv, hw, rfl⟩
  · rw [hv, hw]
  · rw [hv, hw]

/-- What is required in a field is the same, if the same is read from values that are read alike. -/
theorem required_congr (h : FieldsAlike fields entries entries') (name : String) {p : Part}
    (hpart : (fields.lookup name).getD .other = p)
    (hread : ∀ v w, p.ReadAlike v w → read w = read v) :
    entries'.required name read = entries.required name read := by
  unfold Entries.required
  rcases h.field?_cases name hpart with ⟨hv, hw⟩ | ⟨v, w, hv, hw, hvw⟩
  · rw [hv, hw]
  · rw [hv, hw, Option.elim_some, hread v w hvw, Option.elim_some]

/-- So is what a field has a default for. -/
theorem withDefault_congr (h : FieldsAlike fields entries entries') (name : String) {p : Part}
    (hpart : (fields.lookup name).getD .other = p)
    (hread : ∀ v w, p.ReadAlike v w → read w = read v) {default : α} :
    entries'.withDefault name read default = entries.withDefault name read default := by
  unfold Entries.withDefault
  rcases h.field?_cases name hpart with ⟨hv, hw⟩ | ⟨v, w, hv, hw, hvw⟩
  · rw [hv, hw]
  · rw [hv, hw, Option.elim_some, hread v w hvw, Option.elim_some]

/-- What a field has a default for is followed, if what is read from values that are read alike
is. -/
theorem withDefault_follows (h : FieldsAlike fields entries entries') (name : String) {p : Part}
    (hpart : (fields.lookup name).getD .other = p) {R : α → α → Prop}
    (hread : ∀ v w, p.ReadAlike v w → (read v).Follows R (read w)) {default : α}
    (hdefault : R default default) :
    (entries.withDefault name read default).Follows R
      (entries'.withDefault name read default) := by
  unfold Entries.withDefault
  rcases h.field?_cases name hpart with ⟨hv, hw⟩ | ⟨v, w, hv, hw, hvw⟩
  · rw [hv, hw]
    exact .of_valid hdefault
  · rw [hv, hw]
    exact (hread v w hvw).under (.field name)

/-- What is required in a field that no type stands in is the same. -/
theorem required_eq (h : FieldsAlike fields entries entries') (name : String)
    (hother : (fields.lookup name).getD .other = .other) :
    entries'.required name read = entries.required name read :=
  h.required_congr name hother fun _ _ hvw => congrArg read hvw

/-- So is what it has a default for. -/
theorem withDefault_eq (h : FieldsAlike fields entries entries') (name : String)
    (hother : (fields.lookup name).getD .other = .other) {default : α} :
    entries'.withDefault name read default = entries.withDefault name read default :=
  h.withDefault_congr name hother fun _ _ hvw => congrArg read hvw

/-- So is the kind that is checked. -/
theorem checkKind_eq (h : FieldsAlike fields entries entries') (kind : String)
    (hother : (fields.lookup "kind").getD .other = .other) :
    entries'.checkKind kind = entries.checkKind kind :=
  h.withDefault_eq "kind" hother

/-- So is a truth value. -/
theorem flag_eq (h : FieldsAlike fields entries entries') (name : String)
    (hother : (fields.lookup name).getD .other = .other) (default : Bool) :
    entries'.flag name default = entries.flag name default :=
  h.withDefault_eq name hother

/-- So is what may be missing. -/
theorem optional_eq (h : FieldsAlike fields entries entries') (name : String)
    (hother : (fields.lookup name).getD .other = .other) :
    entries'.optional name read = entries.optional name read :=
  h.withDefault_eq name hother

/-- The same type is read from the field of a type. -/
theorem optional_type_eq (h : FieldsAlike fields entries entries') (name : String)
    (hpart : (fields.lookup name).getD .other = .type) :
    entries'.optional name TypeExpr.ofValue = entries.optional name TypeExpr.ofValue :=
  h.withDefault_congr name hpart fun v w (hvw : Part.type.ReadAlike v w) =>
    Value.readOptional_congr hvw.1 (hvw.2 .outermost)

/-- So it is where the field is required. -/
theorem required_type_eq (h : FieldsAlike fields entries entries') (name : String)
    (hpart : (fields.lookup name).getD .other = .type) :
    entries'.required name TypeExpr.ofValue = entries.required name TypeExpr.ofValue :=
  h.required_congr name hpart fun v w (hvw : Part.type.ReadAlike v w) => hvw.2 .outermost

/-- A code block is followed by one that becomes the same when it is expanded. -/
theorem optional_code_follows (h : FieldsAlike fields entries entries') (name : String)
    (hpart : (fields.lookup name).getD .other = .block) :
    (entries.optional name CodeBlock.ofValue).Follows
      (fun o o' => o'.map CodeBlock.expanded = o.map CodeBlock.expanded)
      (entries'.optional name CodeBlock.ofValue) :=
  h.withDefault_follows name hpart
    (fun v w (hvw : Part.block.ReadAlike v w) => Value.readOptional_follows hvw.1 hvw.2) rfl

/-- Items are followed by items of which the same is made, if each of them is. -/
theorem list_follows {item : Nat → Part} (h : FieldsAlike fields entries entries') (name : String)
    (read : Value → Validated α) (key : Nat → α → β)
    (hpart : (fields.lookup name).getD .other = .list item)
    (hitem : ∀ i v w, (item i).ReadAlike v w →
      (read v).Follows (fun a b => key i b = key i a) (read w)) :
    (entries.list name read).Follows (fun xs ys => ys.mapIdx key = xs.mapIdx key)
      (entries'.list name read) := by
  refine h.withDefault_follows name hpart (fun v w hvw => ?_) rfl
  rcases hvw with rfl | ⟨changes, rfl, rfl, hchanges⟩
  · exact .refl _
  · rw [Value.readList, Value.readList, Validated.items, Validated.items, List.map_map,
      List.map_map]
    exact .itemsFrom (fun i c hc => hitem i c.1 c.2 (hchanges i c hc)) 0

/-- Where all items are of one part, the same is made of all of them. -/
theorem each_follows (h : FieldsAlike fields entries entries') (name : String) (item : Part)
    (read : Value → Validated α) (key : α → β)
    (hpart : (fields.lookup name).getD .other = .each item)
    (hitem : ∀ v w, item.ReadAlike v w →
      (read v).Follows (fun a b => key b = key a) (read w)) :
    (entries.list name read).Follows (fun xs ys => ys.map key = xs.map key)
      (entries'.list name read) := by
  have hmap : ∀ xs : List α, xs.mapIdx (fun _ => key) = xs.map key := fun xs => by
    apply List.ext_getElem? fun i => ?_
    simp
  have hlist := h.list_follows name read (fun _ => key) hpart fun _ => hitem
  simpa only [hmap] using hlist

/-- The same items are read where the same is read from each of them. -/
theorem each_eq (h : FieldsAlike fields entries entries') (name : String) (item : Part)
    (hpart : (fields.lookup name).getD .other = .each item)
    (hitem : ∀ v w, item.ReadAlike v w → read w = read v) :
    entries'.list name read = entries.list name read :=
  h.withDefault_congr name hpart fun _ _ hvw => readAlike_each hitem hvw

/-- The same types are read from a list of types. -/
theorem types_eq (h : FieldsAlike fields entries entries') (name : String)
    (hpart : (fields.lookup name).getD .other = .each .type) :
    entries'.list name TypeExpr.ofValue = entries.list name TypeExpr.ofValue :=
  h.each_eq name .type hpart fun _ _ hvw => hvw.2 .outermost

end Part.FieldsAlike

/-! ## Types and arguments -/

open ModuleAssembly.Part (FieldsAlike)

namespace TypeField

variable {fields : List (String × Part)} {entries entries' : Entries}

/-- The same is required in a field of a type whose values are read alike, if the same is read from
these values. -/
theorem required_congr {α : Type} {read : TypeField → Validated α} {p : Part}
    (h : FieldsAlike fields entries entries') (name : String)
    (hpart : (fields.lookup name).getD .other = p)
    (hread : ∀ v w, p.ReadAlike v w → read (ofValue w) = read (ofValue v)) :
    required (TypeExpr.fieldsOf entries') name read =
      required (TypeExpr.fieldsOf entries) name read := by
  rw [required, required, find?_fieldsOf, find?_fieldsOf]
  rcases h.field?_cases name hpart with ⟨hv, hw⟩ | ⟨v, w, hv, hw, hvw⟩
  · rw [hv, hw]
  · rw [hv, hw, Option.map_some, Option.elim_some, hread v w hvw, Option.map_some, Option.elim_some]

/-- The same text is required. -/
theorem required_text_eq (h : FieldsAlike fields entries entries') (name : String)
    (hother : (fields.lookup name).getD .other = .other) :
    required (TypeExpr.fieldsOf entries') name (·.asText) =
      required (TypeExpr.fieldsOf entries) name (·.asText) :=
  required_congr h name hother fun _ _ hvw => congrArg (fun v => (ofValue v).asText) hvw

/-- The same type is required. -/
theorem required_type_eq (h : FieldsAlike fields entries entries') (name : String)
    (hpart : (fields.lookup name).getD .other = .type) (n : Nesting) :
    required (TypeExpr.fieldsOf entries') name (·.asType n) =
      required (TypeExpr.fieldsOf entries) name (·.asType n) :=
  required_congr h name hpart fun v w (hvw : Part.type.ReadAlike v w) => hvw.2 n

/-- The same types are read. -/
theorem asTypes_eq {v w : Value} (h : (Part.each .type).ReadAlike v w) (n : Nesting) :
    (ofValue w).asTypes n = (ofValue v).asTypes n := by
  change TypeExpr.listOfValueAt n w = TypeExpr.listOfValueAt n v
  rw [TypeExpr.listOfValueAt_eq, TypeExpr.listOfValueAt_eq]
  exact Part.readAlike_each (fun v w (hvw : Part.type.ReadAlike v w) => hvw.2 n) h

end TypeField

namespace TypeExpr

variable {entries entries' : Entries}

/-- From fields that are read alike as those of a kind the same type of this kind is read. -/
theorem ofKind?_eq {kind : String} (h : FieldsAlike (Part.typeFields kind) entries entries')
    (n : Nesting) : ofKind? n (fieldsOf entries') kind = ofKind? n (fieldsOf entries) kind := by
  unfold ofKind?
  split
  · rw [TypeField.required_text_eq h "display_name" rfl,
      TypeField.required_text_eq h "module_path" rfl]
  · rw [TypeField.required_text_eq h "name" rfl]
  · dsimp only
    rw [TypeField.required_congr (p := .each .type) h "choices" rfl fun _ _ hvw =>
      TypeField.asTypes_eq hvw _]
  · dsimp only
    rw [TypeField.required_type_eq h "element" rfl]
  · dsimp only
    rw [TypeField.required_type_eq h "base" rfl, TypeField.find?_fieldsOf, TypeField.find?_fieldsOf]
    rcases h.field?_cases "args" rfl with ⟨hv, hw⟩ | ⟨v, w, hv, hw, hvw⟩
    · rw [hv, hw]
    · have hargs := TypeField.asTypes_eq hvw (n.compound .generic)
      rw [hv, hw, Option.map_some, Option.elim_some, hargs, Option.map_some, Option.elim_some]
  · rfl

/-- The same type is read from fields that are read alike. -/
theorem ofFields_eq (h : FieldsAlike (Part.typeFields (entries.text "kind")) entries entries')
    (n : Nesting) : ofFields n (fieldsOf entries') = ofFields n (fieldsOf entries) := by
  have hkind : entries'.field? "kind" = entries.field? "kind" := by
    refine h.field?_eq "kind" ?_
    unfold Part.typeFields
    split
    all_goals rfl
  rw [ofFields, ofFields, TypeField.find?_fieldsOf, TypeField.find?_fieldsOf, hkind]
  rw [Entries.text] at h
  -- Only a text says a kind.
  split
  · rfl
  · next kind _ _ hfield =>
    obtain ⟨v, hv, hvalue⟩ := Option.map_eq_some_iff.1 hfield
    cases hvalue
    rw [hv] at h
    rw [ofKind?_eq h]
  · rfl

end TypeExpr

/-- From mappings whose fields are read alike as those of a type the same type is read. -/
theorem Part.readAlike_type_mapping {entries entries' : Entries}
    (h : FieldsAlike (typeFields (entries.text "kind")) entries entries') :
    type.ReadAlike (.mapping entries) (.mapping entries') := by
  refine ⟨iff_of_false nofun nofun, fun n => ?_⟩
  rw [TypeExpr.ofValueAt, TypeExpr.ofValueAt, TypeExpr.ofFields_eq h]

/-- The same argument is read from them. -/
theorem Part.readAlike_argument_mapping {entries entries' : Entries} (bound : Bool)
    (h : FieldsAlike (typeFields (entries.text "kind")) entries entries') :
    (argument bound).ReadAlike (.mapping entries) (.mapping entries') := by
  have hread : TypeExpr.ofValue (.mapping entries') = TypeExpr.ofValue (.mapping entries) :=
    (readAlike_type_mapping h).2 .outermost
  have hargument : Argument.ofValue (.mapping entries') = Argument.ofValue (.mapping entries) := by
    simp only [Argument.ofValue, hread]
  rw [ReadAlike, hargument]
  exact .refl _

/-! ## Models -/

variable {entries entries' : Entries}

/-- A code block is followed by one that becomes the same when it is expanded. -/
theorem CodeBlock.follows_ofEntries
    (h : FieldsAlike (Part.blockFields (entries.text "format")) entries entries') :
    (ofEntries entries).Follows (fun b c => c.expanded = b.expanded) (ofEntries entries') := by
  have hformat := Validated.Follows.of_satisfies (entries.satisfies_required_text "format")
  have hargs := h.list_follows "args" Argument.ofValue (fun i => Argument.expandedFor
    ((Format.placeholders (entries.text "format"))[i]? == some .type)) rfl fun _ _ _ hvw => hvw
  unfold ofEntries
  rw [h.checkKind_eq "code_block" rfl, h.required_eq "format" rfl]
  refine Validated.Follows.andThen (R := fun b c => c.expanded = b.expanded) ?_ fun b c hbc => ?_
  · refine .seq (.seq (.start ?_) hformat) hargs
    rintro _ format _ ⟨rfl, rfl⟩ args args' hargs
    exact congrArg (CodeBlock.mk _) hargs
  · -- Both are checked alike, since the expansion that they share is.
    have hcheck : c.check = .ok () ↔ b.check = .ok () := by
      rw [← c.check_expanded, hbc, b.check_expanded]
    unfold checked
    cases hb : b.check with
    | error fault => exact .of_invalid _ _
    | ok u =>
      rw [hcheck.2 hb]
      exact .of_valid hbc

/-- So is a property. -/
theorem Property.follows_ofEntries (h : FieldsAlike Part.propertyFields entries entries') :
    (ofEntries entries).Follows (fun p q => q.expanded = p.expanded) (ofEntries entries') := by
  have hinitial := h.optional_code_follows "initializer" rfl
  unfold ofEntries
  rw [h.checkKind_eq "property" rfl, h.required_eq "name" rfl, h.optional_type_eq "type" rfl,
    h.flag_eq "optional" rfl, h.flag_eq "readonly" rfl, h.flag_eq "static" rfl,
    h.optional_eq "doc" rfl, h.flag_eq "exported" rfl]
  refine .keep (.keep (.seq (.keep (.keep (.keep (.keep (.keep (.start ?_)))))) hinitial))
  intro _ name type isOptional isReadonly isStatic initial initial' hinitial doc exported
  simp only [expanded, hinitial]

/-- The same parameter is read. -/
theorem Parameter.ofEntries_eq (h : FieldsAlike [("type", .type)] entries entries') :
    ofEntries entries' = ofEntries entries := by
  rw [ofEntries, h.required_eq "name" rfl, h.optional_type_eq "type" rfl,
    h.flag_eq "optional" rfl, h.optional_eq "default" rfl, ofEntries]

/-- A function is followed by one that becomes the same when it is expanded. -/
theorem Function.follows_ofEntries (h : FieldsAlike Part.functionFields entries entries') :
    (ofEntries entries).Follows (fun f g => g.expanded = f.expanded) (ofEntries entries') := by
  have hbody := h.optional_code_follows "body" rfl
  unfold ofEntries
  rw [h.checkKind_eq "function" rfl, h.required_eq "name" rfl,
    h.each_eq "parameters" .parameter rfl fun _ _ hvw => hvw,
    h.optional_type_eq "return_type" rfl, h.flag_eq "is_async" rfl, h.optional_eq "doc" rfl,
    h.flag_eq "exported" rfl]
  refine .keep (.keep (.keep (.seq (.keep (.keep (.keep (.start ?_)))) hbody)))
  intro _ name parameters result body body' hbody isAsync doc exported
  simp only [expanded, hbody]

/-- An interface is followed by one that becomes the same when it is expanded. -/
theorem Interface.follows_ofEntries
    (h : FieldsAlike (Part.memberFields entries "interface") entries entries') :
    (ofEntries entries).Follows (fun d e => e.expanded = d.expanded) (ofEntries entries') := by
  have hproperties := h.each_follows "properties" .property Property.ofValue Property.expanded rfl
    fun _ _ hvw => hvw
  have hmethods := h.each_follows "methods" .function Function.ofValue Function.expanded rfl
    fun _ _ hvw => hvw
  unfold ofEntries
  rw [h.checkKind_eq "interface" rfl, h.required_eq "name" rfl, h.types_eq "extends" rfl,
    h.optional_eq "doc" rfl, h.flag_eq "exported" rfl]
  refine .keep (.keep (.seq (.seq (.keep (.keep (.start ?_))) hproperties) hmethods))
  intro _ name bases properties properties' hproperties methods methods' hmethods doc exported
  simp only [expanded, hproperties, hmethods]

/-- So is a class. -/
theorem Class.follows_ofEntries
    (h : FieldsAlike (Part.memberFields entries "class") entries entries') :
    (ofEntries entries).Follows (fun d e => e.expanded = d.expanded) (ofEntries entries') := by
  have hproperties := h.each_follows "properties" .property Property.ofValue Property.expanded rfl
    fun _ _ hvw => hvw
  have hmethods := h.each_follows "methods" .function Function.ofValue Function.expanded rfl
    fun _ _ hvw => hvw
  unfold ofEntries
  rw [h.checkKind_eq "class" rfl, h.required_eq "name" rfl, h.optional_type_eq "extends" rfl,
    h.types_eq "implements" rfl, h.optional_eq "doc" rfl, h.flag_eq "exported" rfl,
    h.flag_eq "abstract" rfl]
  refine .keep (.keep (.keep (.seq (.seq ?_ hproperties) hmethods)))
  refine .keep (.keep (.keep (.start ?_)))
  intro _ name base interfaces properties properties' hproperties methods methods' hmethods
    doc exported isAbstract
  simp only [expanded, hproperties, hmethods]

/-- The same enumeration is read. -/
theorem Enumeration.ofEntries_eq
    (h : FieldsAlike (Part.memberFields entries "enum") entries entries') :
    ofEntries entries' = ofEntries entries := by
  have hconstants : entries'.list "constants" Constant.ofValue =
      entries.list "constants" Constant.ofValue := h.withDefault_eq "constants" rfl
  rw [ofEntries, h.checkKind_eq "enum" rfl, h.required_eq "name" rfl, hconstants,
    h.optional_eq "doc" rfl, h.flag_eq "exported" rfl, h.flag_eq "const" rfl, ofEntries]

/-- The same type alias is read. -/
theorem TypeAlias.ofEntries_eq
    (h : FieldsAlike (Part.memberFields entries "type_alias") entries entries') :
    ofEntries entries' = ofEntries entries := by
  rw [ofEntries, h.checkKind_eq "type_alias" rfl, h.required_eq "name" rfl,
    h.required_type_eq "type" rfl, h.optional_eq "doc" rfl, h.flag_eq "exported" rfl, ofEntries]

/-- A member of a kind is followed by one that becomes the same when it is expanded. -/
theorem Member.follows_reader? {kind : String} {reader : Entries → Validated Member}
    (hreader : reader? kind = some reader)
    (h : FieldsAlike (Part.memberFields entries kind) entries entries') :
    (reader entries).Follows (fun m n => n.expanded = m.expanded) (reader entries') := by
  unfold reader? at hreader
  split at hreader
  · cases hreader
    exact (Interface.follows_ofEntries h).map fun _ _ hde =>
      congrArg (Member.declaration ∘ Declaration.interface) hde
  · cases hreader
    exact (Class.follows_ofEntries h).map fun _ _ hde =>
      congrArg (Member.declaration ∘ Declaration.classType) hde
  · cases hreader
    dsimp only
    rw [Enumeration.ofEntries_eq h]
    exact .refl _
  · cases hreader
    exact (Function.follows_ofEntries h).map fun _ _ hde =>
      congrArg (Member.declaration ∘ Declaration.function) hde
  · cases hreader
    exact (Property.follows_ofEntries h).map fun _ _ hde =>
      congrArg (Member.declaration ∘ Declaration.constant) hde
  · cases hreader
    dsimp only
    rw [TypeAlias.ofEntries_eq h]
    exact .refl _
  · cases hreader
    exact (CodeBlock.follows_ofEntries h).map fun _ _ hbc => congrArg Member.code hbc
  · cases hreader

/-- So is a member whose kind is read first. -/
theorem Member.follows_ofValue
    (h : FieldsAlike (Part.memberFields entries (entries.text "kind")) entries entries') :
    (ofValue (.mapping entries)).Follows (fun m n => n.expanded = m.expanded)
      (ofValue (.mapping entries')) := by
  have hkind : entries'.field? "kind" = entries.field? "kind" := by
    refine h.field?_eq "kind" ?_
    unfold Part.memberFields
    split
    all_goals rfl
  rw [ofValue, ofValue, Value.readTagged, Value.readTagged, hkind]
  rw [Entries.text] at h
  split
  · exact .of_invalid _ _
  · next kind hfield =>
    rw [hfield] at h
    cases hreader : reader? kind with
    | none => exact .of_invalid _ _
    | some reader => exact (follows_reader? hreader h).under (.field kind)
  · exact .of_invalid _ _

/-- A file is followed by one that becomes the same when it is expanded. -/
theorem FileModel.follows_ofEntries
    (h : FieldsAlike [("members", .each .member)] entries entries') :
    (ofEntries entries).Follows (fun f g => g.expanded = f.expanded) (ofEntries entries') := by
  have hmembers := h.each_follows "members" .member Member.ofValue Member.expanded rfl
    fun _ _ hvw => hvw
  unfold ofEntries
  rw [h.required_eq "path" rfl, h.optional_eq "comment" rfl]
  refine .seq (.keep (.start ?_)) hmembers
  intro path comment members members' hmembers
  simp only [expanded, hmembers]

end ModuleAssembly
