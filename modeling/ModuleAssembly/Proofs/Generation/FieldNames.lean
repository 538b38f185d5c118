import Mathlib.Data.Set.Function
import ModuleAssembly.Proofs.Generation.References
import ModuleAssembly.Proofs.Separators
import ModuleAssembly.Proofs.Text.Cut
import ModuleAssembly.Proofs.Text.LetterCase

/-!
# Names of properties

A name in snake case is had again from its spelling in camel case: every capital was the first
letter of a word after an underscore (`Generation.camelToSnake_snakeToCamel`). So different names in
snake case get different spellings, and the interface of a message whose fields have different names
in snake case has a property of its own for every field, whatever the options
(`Generation.properties_distinct`). The spelling in camel case has no underscore, of any name
(`Generation.underscore_not_mem_snakeToCamel`), and is its own spelling.
-/

namespace ModuleAssembly.Generation

open Descriptor (Field File Message)
open TypeMap (DeclaredType typesOf)

/-! ## Names in snake case -/

/-- Whether characters are a word in lower case: a letter, and then letters and digits. -/
def isLowerWord : List Char → Bool
  | [] => false
  | c :: cs => c.isLower && cs.all fun c => c.isLower || c.isDigit

/-- A name in snake case: words in lower case with single underscores between them. -/
def IsSnakeCase (name : String) : Prop :=
  ∃ words : List String, words ≠ [] ∧ (∀ w ∈ words, isLowerWord w.toList = true) ∧
    name = String.intercalate "_" words

/-- The characters of a word are neither capitals nor underscores. -/
theorem plain_of_mem_lowerWord {cs : List Char} (h : isLowerWord cs = true) :
    ∀ c ∈ cs, c.isUpper = false ∧ c ≠ '_' := by
  cases cs with
  | nil => cases h
  | cons first rest =>
    obtain ⟨hfirst, hrest⟩ := Bool.and_eq_true_iff.1 h
    refine List.forall_mem_cons.2 ⟨Text.plain_of_isLower_or_isDigit (.inl hfirst), fun c hc => ?_⟩
    have hword := Bool.or_eq_true_iff.1 (List.all_eq_true.1 hrest c hc)
    exact Text.plain_of_isLower_or_isDigit hword

/-- A name is in snake case exactly if its parts between underscores are words. -/
theorem isSnakeCase_iff {name : String} :
    IsSnakeCase name ↔ ∀ w ∈ Text.parts '_' name, isLowerWord w.toList = true := by
  constructor
  · rintro ⟨words, hne, hwords, rfl⟩
    have hplain : ∀ w ∈ words, '_' ∉ w.toList :=
      fun w hw hmark => (plain_of_mem_lowerWord (hwords w hw) '_' hmark).2 rfl
    have hparts : Text.parts '_' (String.intercalate "_" words) = words :=
      Text.parts_intercalate hne hplain
    rw [hparts]
    exact hwords
  · intro h
    exact ⟨_, Text.parts_ne_nil '_' name, h, (Text.intercalate_parts '_' name).symm⟩

instance (name : String) : Decidable (IsSnakeCase name) :=
  decidable_of_iff _ isSnakeCase_iff.symm

/-! ## Reading names back -/

/-- What a character of a name in camel case stands for: a capital stands for an underscore and the
letter after it. -/
def spread (c : Char) : List Char :=
  if c.isUpper then ['_', c.toLower] else [c]

/-- The name in snake case that a name in camel case stands for. -/
def camelToSnake (name : String) : String :=
  String.ofList (name.toList.flatMap spread)

/-- A word stands for itself. -/
theorem flatMap_spread_of_plain {cs : List Char} (h : ∀ c ∈ cs, c.isUpper = false) :
    cs.flatMap spread = cs := by
  induction cs with
  | nil => rfl
  | cons c cs ih =>
    rw [List.flatMap_cons, ih fun d hd => h d (List.mem_cons_of_mem c hd), spread,
      h c List.mem_cons_self]
    rfl

/-- A capitalised word stands for the word after an underscore. -/
theorem flatMap_spread_capitalized {cs : List Char} (h : isLowerWord cs = true) :
    (capitalized cs).flatMap spread = '_' :: cs := by
  cases cs with
  | nil => cases h
  | cons c cs =>
    have hlower : c.isLower = true := (Bool.and_eq_true_iff.1 h).1
    obtain ⟨hcapital, hback⟩ := Text.toUpper_of_isLower hlower
    have hrest := flatMap_spread_of_plain fun d hd =>
      (plain_of_mem_lowerWord h d (List.mem_cons_of_mem c hd)).1
    -- The first letter is written as a capital, and only this stands for more than itself.
    rw [capitalized, Text.upper_of_isLower hlower, List.singleton_append, List.flatMap_cons, hrest,
      spread, if_pos hcapital, hback]
    rfl

/-- Words that are joined, the later ones capitalised, stand for the words with underscores between
them. -/
theorem flatMap_spread_joinParts {words : List (List Char)}
    (h : ∀ w ∈ words, isLowerWord w = true) :
    (joinParts words).flatMap spread = ['_'].intercalate words := by
  cases words with
  | nil => rfl
  | cons first others =>
    obtain ⟨hfirst, hothers⟩ := List.forall_mem_cons.1 h
    rw [joinParts, List.flatMap_append, List.flatMap_assoc, intercalate_cons_eq_flatMap,
      flatMap_spread_of_plain fun c hc => (plain_of_mem_lowerWord hfirst c hc).1,
      List.flatMap_congr fun w hw => flatMap_spread_capitalized (hothers w hw)]
    rfl

/-- A name in snake case is had again from its spelling in camel case. -/
theorem camelToSnake_snakeToCamel {name : String} (h : IsSnakeCase name) :
    camelToSnake (snakeToCamel name) = name := by
  have hwords : ∀ w ∈ Text.partsAt '_' name.toList, isLowerWord w = true := by
    intro w hw
    have hpart := isSnakeCase_iff.1 h _ (List.mem_map_of_mem hw)
    rwa [String.toList_ofList] at hpart
  rw [camelToSnake, snakeToCamel, String.toList_ofList, flatMap_spread_joinParts hwords,
    Text.partsAt_eq_splitOn, List.intercalate_splitOn, String.ofList_toList]

/-- Different names in snake case have different spellings. -/
theorem injOn_snakeToCamel : Set.InjOn snakeToCamel {name | IsSnakeCase name} :=
  Set.LeftInvOn.injOn fun _ h => camelToSnake_snakeToCamel h

/-! ## Underscores -/

/-- A capital adds no underscore. -/
theorem underscore_not_mem_capitalized {cs : List Char} (h : '_' ∉ cs) :
    '_' ∉ capitalized cs := by
  cases cs with
  | nil => exact h
  | cons c cs =>
    rw [List.mem_cons, not_or] at h
    exact List.not_mem_append (Text.underscore_not_mem_upper (Ne.symm h.1)) h.2

/-- The spelling of a name has no underscore. -/
theorem underscore_not_mem_snakeToCamel (name : String) : '_' ∉ (snakeToCamel name).toList := by
  have hparts : ∀ w ∈ Text.partsAt '_' name.toList, '_' ∉ w :=
    fun w hw => Text.not_mem_of_mem_partsAt hw
  obtain ⟨first, others, hsplit⟩ := Text.exists_partsAt_eq '_' name.toList
  rw [hsplit, List.forall_mem_cons] at hparts
  rw [snakeToCamel, String.toList_ofList, hsplit, joinParts]
  refine List.not_mem_append hparts.1 fun hmem => ?_
  obtain ⟨w, hw, hin⟩ := List.mem_flatMap.1 hmem
  exact underscore_not_mem_capitalized (hparts.2 w hw) hin

/-- A name without underscores is its own spelling. -/
theorem snakeToCamel_of_plain {name : String} (h : '_' ∉ name.toList) :
    snakeToCamel name = name := by
  rw [snakeToCamel, Text.partsAt_eq_splitOn, List.splitOn_eq_singleton h]
  simp [joinParts]

/-! ## Properties of an interface -/

/-- The field that a slot is for. -/
def Slot.own : Slot → Field
  | .plain f => f
  | .map f _ _ => f

/-- The slot of a field is for the field. -/
theorem own_of_slot {entries : List (String × Message)} {g : Field} {found : Slot}
    (h : slot entries g = .ok found) : found.own = g := by
  unfold slot at h
  split at h
  · split at h
    · rw [← Except.ok.inj h]
      rfl
    · cases h
  · rw [← Except.ok.inj h]
    rfl

variable {types : TypeMap} {options : GenerationOptions}

/-- The property of a slot has the name of the field, spelled as the options ask. -/
theorem name_of_slotProperty {found : Slot} {p : Property}
    (h : slotProperty types options found = .ok p) : p.name = propertyName options found.own := by
  cases found with
  | plain f | map f key value =>
    obtain ⟨t, -, hp⟩ := Fault.exists_of_bind_eq_ok h
    rw [← Except.ok.inj hp]
    rfl

/-- So has the property of a field. -/
theorem name_of_fieldProperty {entries : List (String × Message)} {g : Field} {p : Property}
    (h : fieldProperty types options entries g = .ok p) : p.name = propertyName options g := by
  obtain ⟨found, hslot, hproperty⟩ := Fault.exists_of_bind_eq_ok h
  rw [← own_of_slot hslot]
  exact name_of_slotProperty hproperty

/-- Fields with different names in snake case have properties with different names. -/
theorem nodup_propertyName {fields : List Field} (hsnake : ∀ g ∈ fields, IsSnakeCase g.name)
    (hdistinct : (fields.map (·.name)).Nodup) : (fields.map (propertyName options)).Nodup := by
  unfold propertyName
  split
  · refine (hdistinct.of_map _).map_on fun g hg g' hg' hsame => ?_
    exact List.inj_on_of_nodup_map hdistinct hg hg'
      (injOn_snakeToCamel (hsnake g hg) (hsnake g' hg') hsame)
  · exact hdistinct

/-- What the interface of a message is: it has a property for each field, in order. -/
theorem properties_of_interface {s : TypeMap.Scope} {name : String} {fields : List Field}
    {nested : List Message} {x : Declaration}
    (h : interface types options s name fields nested = .ok x) :
    ∃ i : Interface, x = .interface i ∧ i.name = s.generatedName name ∧
      i.properties.map (·.name) = fields.map (propertyName options) := by
  obtain ⟨properties, hproperties, hx⟩ := Fault.exists_of_bind_eq_ok h
  exact ⟨_, (Except.ok.inj hx).symm, rfl,
    Fault.map_eq_map_of_mapM hproperties fun g p hp => name_of_fieldProperty hp⟩

/-- Different names in snake case have different spellings in camel case. So the interface that is
generated for a message has properties with different names, one for each field and in order, if the
fields have different names in snake case. The spelling in camel case has no underscore and does not
change when it is spelled so again; this holds of every name. -/
theorem properties_distinct :
    Set.InjOn snakeToCamel {name | IsSnakeCase name} ∧
      (∀ types options f model, file types options f = .ok model →
        ∀ d ∈ typesOf f, d.isGenerated = true → ∀ m, d.body = .message m →
          (∀ g ∈ m.fields, IsSnakeCase g.name) → (m.fields.map (·.name)).Nodup →
            ∃ i : Interface,
              interface types options (d.place.scope f) m.name m.fields m.nested =
                .ok (.interface i) ∧
              .interface i ∈ model.declarations ∧ i.name = d.generatedName f ∧
              i.properties.map (·.name) = m.fields.map (propertyName options) ∧
              (i.properties.map (·.name)).Nodup) ∧
      ∀ name, '_' ∉ (snakeToCamel name).toList ∧
        snakeToCamel (snakeToCamel name) = snakeToCamel name := by
  refine ⟨injOn_snakeToCamel, ?_, fun name => ?_⟩
  · intro types options f model hfile d hd hgenerated m hbody hsnake hdistinct
    obtain ⟨inner, services, hfrom⟩ := exists_generatedFrom hfile
    obtain ⟨x, hx, hdeclare⟩ := hfrom.exists_declare_of_mem hd hgenerated
    rw [declare, hbody] at hdeclare
    obtain ⟨i, rfl, hname, hproperties⟩ := properties_of_interface hdeclare
    refine ⟨i, hdeclare, hx, ?_, hproperties, ?_⟩
    · rw [hname, DeclaredType.generatedName, DeclaredType.name, hbody]
    · rw [hproperties]
      exact nodup_propertyName hsnake hdistinct
  · have hplain := underscore_not_mem_snakeToCamel name
    exact ⟨hplain, snakeToCamel_of_plain hplain⟩

/-- A message in a message with fields whose names have the same letters, and a map. -/
theorem properties_distinct_of_alike :
    let entry : Message :=
      { name := "LabelsEntry", mapEntry := true
        fields := [{ name := "key", type := .string }, { name := "value", type := .int64 }] }
    let labels : Field :=
      { name := "labels", label := .repeated, type := .message
        typeName := ".Group.User.LabelsEntry" }
    let user : Message :=
      { name := "User", nested := [entry]
        fields := [{ name := "user_id", type := .string }, labels,
          { name := "userid", type := .string }, { name := "user_i_d2", type := .int32 }] }
    let f : File := { name := "user.proto", messages := [{ name := "Group", nested := [user] }] }
    (∀ g ∈ user.fields, IsSnakeCase g.name) ∧ (user.fields.map (·.name)).Nodup ∧
      (∃ model, file (TypeMap.ofFiles [f]) {} f = .ok model ∧
        ∃ i : Interface, .interface i ∈ model.declarations ∧ i.name = "Group_User" ∧
          i.properties.map (·.name) = ["userId", "labels", "userid", "userID2"] ∧
          (i.properties.map (·.name)).Nodup) ∧
      snakeToCamel "user_i_d2" ≠ snakeToCamel "user_id2" := by
  intro entry labels user f
  have hsnake : ∀ g ∈ user.fields, IsSnakeCase g.name := by decide +kernel
  have hdistinct : (user.fields.map (·.name)).Nodup := by decide
  have hresult : ((file (TypeMap.ofFiles [f]) {} f).map fun _ => ()) = .ok () := by decide +kernel
  obtain ⟨model, hmodel, -⟩ := Fault.exists_of_map_eq_ok hresult
  obtain ⟨hinjective, hinterfaces, -⟩ := properties_distinct
  let d : DeclaredType := ⟨⟨["Group"], [4, 0, 3, 0], false⟩, .message user⟩
  have hd : d ∈ typesOf f :=
    TypeMap.mem_typesOf.2 (.inr ⟨0, { name := "Group", nested := [user] }, rfl,
      TypeMap.mem_typesIn.2 (.inr (.inr ⟨0, user, rfl, TypeMap.mem_typesIn.2 (.inl rfl)⟩))⟩)
  obtain ⟨i, -, hi, hname, hproperties, hnodup⟩ :=
    hinterfaces _ _ f model hmodel d hd rfl user rfl hsnake hdistinct
  have hgenerated : d.generatedName f = "Group_User" := by decide +kernel
  have hnames : user.fields.map (propertyName {}) = ["userId", "labels", "userid", "userID2"] := by
    decide +kernel
  refine ⟨hsnake, hdistinct, ⟨model, hmodel, i, hi, hname.trans hgenerated,
    hproperties.trans hnames, hnodup⟩, fun hsame => ?_⟩
  have hfirst : IsSnakeCase "user_i_d2" := by decide +kernel
  have hsecond : IsSnakeCase "user_id2" := by decide +kernel
  exact absurd (hinjective hfirst hsecond hsame) (by decide)

end ModuleAssembly.Generation
