import ModuleAssembly.Proofs.Code.References
import ModuleAssembly.Validation.Members

/-!
# Code blocks of files that are read

Every code block of a file that is read from a document satisfies what is asked of it
(`FileModel.isChecked_of_valid`), wherever it stands: the reader of a code block checks it, and a
reader that puts parts together keeps what holds of each (`Validated.Satisfies`).
-/

namespace ModuleAssembly

namespace Validated

variable {α β : Type}

/-- Whether what was read, if all went well, satisfies a predicate. -/
def Satisfies (r : Validated α) (P : α → Prop) : Prop :=
  ∀ a, r = .valid a → P a

/-- What went well satisfies what holds of it. -/
theorem satisfies_valid {a : α} {P : α → Prop} (h : P a) : (valid a).Satisfies P := by
  intro b hb
  cases hb
  exact h

/-- Nothing was read after errors. -/
theorem satisfies_invalid (issues : List Issue) (P : α → Prop) :
    (invalid issues).Satisfies P := by
  intro a ha
  cases ha

namespace Satisfies

variable {P : α → Prop} {Q : β → Prop}

/-- A function keeps what it turns into the wanted predicate. -/
theorem map {r : Validated α} {f : α → β} (h : r.Satisfies P) (hf : ∀ a, P a → Q (f a)) :
    (r.map f).Satisfies Q := by
  cases r with
  | valid a => exact satisfies_valid (hf a (h a rfl))
  | invalid issues => exact satisfies_invalid issues Q

/-- A constructor gives what holds of it whatever is read first. -/
theorem start {r : Validated α} {f : α → β} (hf : ∀ a, Q (f a)) : (f <$> r).Satisfies Q :=
  map (P := fun _ => True) (fun _ _ => trivial) fun a _ => hf a

/-- A constructor may use what holds of its next field. -/
theorem seq {f : Validated (α → β)} {r : Validated α}
    (hf : f.Satisfies fun g => ∀ a, P a → Q (g a)) (hr : r.Satisfies P) :
    (f <*> r).Satisfies Q := by
  cases f with
  | valid g =>
    cases r with
    | valid a => exact satisfies_valid (hf g rfl a (hr a rfl))
    | invalid issues => exact satisfies_invalid issues Q
  | invalid issues =>
    cases r with
    | valid a => exact satisfies_invalid issues Q
    | invalid more => exact satisfies_invalid (issues ++ more) Q

/-- A constructor may ignore its next field. -/
theorem any {f : Validated (α → β)} {r : Validated α}
    (hf : f.Satisfies fun g => ∀ a, Q (g a)) : (f <*> r).Satisfies Q :=
  seq (P := fun _ => True) (fun g hg a _ => hf g hg a) fun _ _ => trivial

/-- What goes on with what was read may use what holds of it. -/
theorem andThen {r : Validated α} {f : α → Validated β} (h : r.Satisfies P)
    (hf : ∀ a, P a → (f a).Satisfies Q) : (r.andThen f).Satisfies Q := by
  cases r with
  | valid a => exact hf a (h a rfl)
  | invalid issues => exact satisfies_invalid issues Q

/-- What is read one step further is what is read there. -/
theorem under {r : Validated α} (h : r.Satisfies P) (key : Key) :
    (r.under key).Satisfies P := by
  cases r with
  | valid a => exact h
  | invalid issues => exact satisfies_invalid _ P

/-- Items that were read one by one satisfy what each does. -/
theorem itemsFrom {results : List (Validated α)} (h : ∀ r ∈ results, r.Satisfies P)
    (start : Nat) : (itemsFrom start results).Satisfies fun xs => ∀ x ∈ xs, P x := by
  induction results generalizing start with
  | nil => exact satisfies_valid (by simp)
  | cons r results ih =>
    have hfirst := (h r List.mem_cons_self).under (.index start)
    have hrest := ih (fun r' hr' => h r' (List.mem_cons_of_mem r hr')) (start + 1)
    refine seq (hfirst.map fun a ha xs hxs => ?_) hrest
    exact List.forall_mem_cons.2 ⟨ha, hxs⟩

end Satisfies

end Validated

/-! ## Fields -/

variable {α : Type} {P : α → Prop} {read : Value → Validated α}

/-- A required field satisfies what its reader ensures. -/
theorem Entries.satisfies_required (entries : Entries) (name : String)
    (h : ∀ v, (read v).Satisfies P) : (entries.required name read).Satisfies P := by
  unfold required
  refine Validated.Satisfies.under ?_ (.field name)
  cases entries.field? name with
  | none => exact Validated.satisfies_invalid _ P
  | some v => exact h v

/-- A field with a default satisfies what its reader ensures, if the default does. -/
theorem Entries.satisfies_withDefault (entries : Entries) (name : String) {default : α}
    (h : ∀ v, (read v).Satisfies P) (hdefault : P default) :
    (entries.withDefault name read default).Satisfies P := by
  unfold withDefault
  cases entries.field? name with
  | none => exact Validated.satisfies_valid hdefault
  | some v => exact (h v).under (.field name)

/-- A field that may be missing satisfies what its reader ensures, if it is there. -/
theorem Entries.satisfies_optional (entries : Entries) (name : String)
    (h : ∀ v, (read v).Satisfies P) :
    (entries.optional name read).Satisfies fun o => ∀ a ∈ o.toList, P a := by
  refine entries.satisfies_withDefault name (fun v => ?_) (by simp)
  have hsome : ((read v).map some).Satisfies fun o => ∀ a ∈ o.toList, P a :=
    (h v).map fun a ha => by simpa using ha
  unfold Value.readOptional
  split
  · exact Validated.satisfies_valid (by simp)
  · exact hsome

/-- The items of a field with a list satisfy what their reader ensures. -/
theorem Entries.satisfies_list (entries : Entries) (name : String)
    (h : ∀ v, (read v).Satisfies P) :
    (entries.list name read).Satisfies fun xs => ∀ x ∈ xs, P x := by
  refine entries.satisfies_withDefault name (fun v => ?_) (by simp)
  unfold Value.readList
  split
  · next values =>
    refine Validated.Satisfies.itemsFrom (fun r hr => ?_) 0
    obtain ⟨v, -, rfl⟩ := List.mem_map.1 hr
    exact h v
  · exact Validated.satisfies_invalid _ _

/-- What is read from the fields of a mapping satisfies what the reader of the fields ensures. -/
theorem Value.satisfies_readModel {read : Entries → Validated α}
    (h : ∀ entries, (read entries).Satisfies P) (v : Value) : (v.readModel read).Satisfies P := by
  unfold readModel
  split
  · exact h _
  · exact Validated.satisfies_invalid _ P

/-- What is read by its kind satisfies what the readers of all kinds ensure. -/
theorem Value.satisfies_readTagged {read : String → Option (Entries → Validated α)}
    (h : ∀ kind reader, read kind = some reader → ∀ entries, (reader entries).Satisfies P)
    (v : Value) : (v.readTagged read).Satisfies P := by
  unfold readTagged
  split
  · split
    · exact Validated.satisfies_invalid _ P
    · next kind _ =>
      split
      · next reader hreader => exact (h kind reader hreader _).under (.field kind)
      · exact Validated.satisfies_invalid _ P
    · exact Validated.satisfies_invalid _ P
  · exact Validated.satisfies_invalid _ P

/-! ## Models -/

namespace CodeBlock

/-- A code block is checked when it is read. -/
theorem satisfies_ofEntries (entries : Entries) :
    (ofEntries entries).Satisfies fun b => b.check = .ok () := by
  intro b hb
  unfold ofEntries Validated.andThen at hb
  split at hb
  · next c _ =>
    unfold checked at hb
    split at hb
    · next hcheck =>
      cases hb
      exact hcheck
    · cases hb
  · cases hb

/-- So is one that is read from a value. -/
theorem satisfies_ofValue (v : Value) : (ofValue v).Satisfies fun b => b.check = .ok () :=
  Value.satisfies_readModel satisfies_ofEntries v

end CodeBlock

/-- The code block of a property is checked. -/
theorem Property.satisfies_ofEntries (entries : Entries) :
    (ofEntries entries).Satisfies fun p => AllChecked p.blocks := by
  have hinitial := entries.satisfies_optional "initializer" CodeBlock.satisfies_ofValue
  refine .any (.any (.seq ?_ hinitial))
  refine .any (.any (.any (.any (.any (.start ?_)))))
  exact fun _ _ _ _ _ _ _ h _ _ => h

/-- The code block of a function is checked. -/
theorem Function.satisfies_ofEntries (entries : Entries) :
    (ofEntries entries).Satisfies fun f => AllChecked f.blocks := by
  have hbody := entries.satisfies_optional "body" CodeBlock.satisfies_ofValue
  refine .any (.any (.any (.seq ?_ hbody)))
  refine .any (.any (.any (.start ?_)))
  exact fun _ _ _ _ _ h _ _ _ => h

/-- The code blocks of an interface are checked. -/
theorem Interface.satisfies_ofEntries (entries : Entries) :
    (ofEntries entries).Satisfies fun d => AllChecked (Declaration.interface d).blocks := by
  have hproperties := entries.satisfies_list "properties"
    (Value.satisfies_readModel Property.satisfies_ofEntries)
  have hmethods := entries.satisfies_list "methods"
    (Value.satisfies_readModel Function.satisfies_ofEntries)
  refine .any (.any (.seq (.seq ?_ hproperties) hmethods))
  refine .any (.any (.start ?_))
  exact fun _ _ _ properties hp methods hm _ _ =>
    List.forall_mem_append.2 ⟨List.forall_mem_flatMap.2 hp, List.forall_mem_flatMap.2 hm⟩

/-- The code blocks of a class are checked. -/
theorem Class.satisfies_ofEntries (entries : Entries) :
    (ofEntries entries).Satisfies fun d => AllChecked (Declaration.classType d).blocks := by
  have hproperties := entries.satisfies_list "properties"
    (Value.satisfies_readModel Property.satisfies_ofEntries)
  have hmethods := entries.satisfies_list "methods"
    (Value.satisfies_readModel Function.satisfies_ofEntries)
  refine .any (.any (.any (.seq (.seq ?_ hproperties) hmethods)))
  refine .any (.any (.any (.start ?_)))
  exact fun _ _ _ _ properties hp methods hm _ _ _ =>
    List.forall_mem_append.2 ⟨List.forall_mem_flatMap.2 hp, List.forall_mem_flatMap.2 hm⟩

/-- The code blocks of a member are checked, whatever its kind. -/
theorem Member.satisfies_reader? {kind : String} {reader : Entries → Validated Member}
    (h : reader? kind = some reader) (entries : Entries) :
    (reader entries).Satisfies fun m => AllChecked m.blocks := by
  have hnone : AllChecked [] := fun b hb => absurd hb List.not_mem_nil
  have hany : ∀ {β : Type} (r : Validated β), r.Satisfies fun _ => True :=
    fun r a _ => trivial
  unfold reader? at h
  split at h
  · cases h
    exact (Interface.satisfies_ofEntries entries).map fun _ hd => hd
  · cases h
    exact (Class.satisfies_ofEntries entries).map fun _ hd => hd
  · cases h
    exact (hany _).map fun _ _ => hnone
  · cases h
    exact (Function.satisfies_ofEntries entries).map fun _ hd => hd
  · cases h
    exact (Property.satisfies_ofEntries entries).map fun _ hd => hd
  · cases h
    exact (hany _).map fun _ _ => hnone
  · cases h
    exact (CodeBlock.satisfies_ofEntries entries).map fun b hb c hc => by
      rwa [List.mem_singleton.1 hc]
  · cases h

/-- So are those of one that is read from a value. -/
theorem Member.satisfies_ofValue (v : Value) :
    (ofValue v).Satisfies fun m => AllChecked m.blocks :=
  Value.satisfies_readTagged (fun _ _ h => satisfies_reader? h) v

namespace FileModel

/-- The code blocks of a file are checked. -/
theorem satisfies_ofEntries (entries : Entries) : (ofEntries entries).Satisfies IsChecked := by
  have hmembers := entries.satisfies_list "members" Member.satisfies_ofValue
  refine .seq ?_ hmembers
  refine .any (.start ?_)
  exact fun _ _ members hm => List.forall_mem_flatMap.2 hm

/-- Every code block of a file that is read from a document satisfies what is asked of it. -/
theorem isChecked_of_valid {v : Value} {f : FileModel} (h : ofValue v = .valid f) :
    f.IsChecked :=
  Value.satisfies_readModel satisfies_ofEntries v f h

end FileModel

end ModuleAssembly
