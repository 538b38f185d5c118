import ModuleAssembly.Parameters
import ModuleAssembly.Proofs.Association
import ModuleAssembly.Proofs.Text.Cut

/-!
# What parameters decide

Of the items of a parameter text with one key the last counts (`Parameters.lookup_ofText`), so a
text after another overrides it (`Parameters.lookup_ofText_append`), and the options depend on the
last value of each key alone.

The options are also what is left of the defaults after one change after the other
(`Parameters.options_eq_foldl`). Each change keeps to the conventions of NestJS
(`GenerationOptions.FollowsNestJs`), and so do the options.
-/

namespace ModuleAssembly

/-! ## The last value of a key -/

namespace Parameters

/-- The last item of a key in a text. -/
def lastItem? (s key : String) : Option String :=
  ((items s).filter fun item => (splitItem item).1 == key).getLast?

/-- The value that the last item of a key gives. -/
def lastValue? (s key : String) : Option String :=
  (lastItem? s key).map fun item => (splitItem item).2

/-- The parameters of a text give each key its last value. -/
theorem lookup_ofText (s key : String) : (ofText s).lookup key = lastValue? s key := by
  rw [ofText, Association.lookup_ofList, ← List.map_reverse, Association.lookup_map, lastValue?,
    lastItem?, ← List.head?_filter, List.filter_reverse, List.head?_reverse]

/-- The items of two texts with a comma between them. -/
theorem items_append (s t : String) : items (s ++ "," ++ t) = items s ++ items t := by
  have hparts : Text.parts ',' (s ++ "," ++ t) = Text.parts ',' s ++ Text.parts ',' t :=
    Text.parts_append ',' s t
  rw [items, hparts, List.map_append, List.filter_append]
  rfl

/-- The second of two texts overrides the first. -/
theorem lookup_ofText_append (s t key : String) :
    (ofText (s ++ "," ++ t)).lookup key =
      ((ofText t).lookup key).or ((ofText s).lookup key) := by
  rw [ofText, items_append, Association.lookup_ofList, List.map_append, List.reverse_append,
    List.lookup_append, ← Association.lookup_ofList, ← Association.lookup_ofList]
  rfl

/-- The options depend on what the parameters have for each key. -/
theorem options_congr {p q : Parameters} (h : ∀ key, p.lookup key = q.lookup key) :
    p.options = q.options := by
  have hvalue : ∀ key value, p.hasValue key value = q.hasValue key value := by
    intro key value
    rw [hasValue, hasValue, h]
  simp only [options, longType, hvalue]

end Parameters

/-! ## Changes of the options -/

namespace GenerationOptions

/-- Whether options keep to the conventions of NestJS: nothing else returns observables, and with it
the names of methods start with a small letter and time stamps do not become dates. -/
structure FollowsNestJs (o : GenerationOptions) : Prop where
  /-- Observables are returned with NestJS alone. -/
  nestJs : o.returnObservable = true → o.nestJs = true
  /-- With NestJS the names of methods start with a small letter. -/
  lowerCaseMethods : o.nestJs = true → o.lowerCaseMethods = true
  /-- With NestJS time stamps do not become dates. -/
  useDate : o.nestJs = true → o.useDate = false

/-- What may be changed in the options. -/
structure Change where
  /-- Whether it is. -/
  applies : Bool
  /-- The options with the change. -/
  set : GenerationOptions → GenerationOptions

/-- The options after a change, if it is made. -/
def Change.apply (change : Change) (o : GenerationOptions) : GenerationOptions :=
  if change.applies then change.set o else o

/-- One of two options is made of one of the two in each field. -/
theorem ite_eq (c : Prop) [Decidable c] (a b : GenerationOptions) :
    (if c then a else b) =
      { snakeToCamel := if c then a.snakeToCamel else b.snakeToCamel
        longType := if c then a.longType else b.longType
        useOptionals := if c then a.useOptionals else b.useOptionals
        useDate := if c then a.useDate else b.useDate
        lowerCaseMethods := if c then a.lowerCaseMethods else b.lowerCaseMethods
        stringEnums := if c then a.stringEnums else b.stringEnums
        returnObservable := if c then a.returnObservable else b.returnObservable
        nestJs := if c then a.nestJs else b.nestJs
        addUnrecognized := if c then a.addUnrecognized else b.addUnrecognized } := by
  split
  · rfl
  · rfl

/-- What every change keeps holds after all of them, if it holds at first. -/
theorem foldl_apply_invariant {P : GenerationOptions → Prop} {changes : List Change}
    (hset : ∀ change ∈ changes, ∀ o, P o → P (change.set o)) {o : GenerationOptions} (ho : P o) :
    P (changes.foldl (fun o change => change.apply o) o) := by
  induction changes generalizing o with
  | nil => exact ho
  | cons change changes ih =>
    have hfirst : P (change.apply o) := by
      unfold Change.apply
      split
      · exact hset change List.mem_cons_self o ho
      · exact ho
    exact ih (fun c hc => hset c (List.mem_cons_of_mem change hc)) hfirst

end GenerationOptions

open GenerationOptions (Change FollowsNestJs)

namespace Parameters

/-- The changes that parameters make, in order. A key has one value, so of two changes for a key one
is made at most. -/
def changes (p : Parameters) : List Change := [
  ⟨p.hasValue "snakeToCamel" "false", fun o => { o with snakeToCamel := false }⟩,
  ⟨p.hasValue "forceLong" "true" || p.hasValue "forceLong" "long",
    fun o => { o with longType := .long }⟩,
  ⟨p.hasValue "forceLong" "string", fun o => { o with longType := .string }⟩,
  ⟨p.hasValue "useOptionals" "true", fun o => { o with useOptionals := true }⟩,
  ⟨p.hasValue "useDate" "false", fun o => { o with useDate := false }⟩,
  ⟨p.hasValue "lowerCaseServiceMethods" "true", fun o => { o with lowerCaseMethods := true }⟩,
  ⟨p.hasValue "stringEnums" "true", fun o => { o with stringEnums := true }⟩,
  ⟨p.hasValue "nestJs" "true", fun o =>
    { o with
      nestJs := true
      lowerCaseMethods := true
      useDate := false
      returnObservable := p.hasValue "returnObservable" "true" || o.returnObservable }⟩,
  ⟨p.hasValue "unrecognizedEnum" "false", fun o => { o with addUnrecognized := false }⟩,
  ⟨p.hasValue "unrecognizedEnum" "true", fun o => { o with addUnrecognized := true }⟩]

/-- A key has no two values. -/
theorem eq_of_hasValue {p : Parameters} {key value other : String}
    (h : p.hasValue key value = true) (hother : p.hasValue key other = true) : value = other := by
  rw [hasValue, beq_iff_eq] at h hother
  exact Option.some.inj (h.symm.trans hother)

/-- The options are the defaults after the changes. -/
theorem options_eq_foldl (p : Parameters) :
    p.options = p.changes.foldl (fun o change => change.apply o) {} := by
  have hlong := @eq_of_hasValue p "forceLong"
  have hunknown := @eq_of_hasValue p "unrecognizedEnum"
  simp only [options, longType, changes, List.foldl_cons, List.foldl_nil, Change.apply,
    GenerationOptions.ite_eq, ite_self]
  -- What is left are nine equations of truth values, one for each field.
  congr 1
  · simp
  · grind
  · simp
  · grind
  · grind
  · simp
  · grind
  · simp
  · grind

/-- Each change keeps to the conventions of NestJS. -/
theorem followsNestJs_set {p : Parameters} {change : Change} (h : change ∈ p.changes)
    {o : GenerationOptions} (ho : o.FollowsNestJs) : (change.set o).FollowsNestJs := by
  obtain ⟨hnest, hlower, hdate⟩ := ho
  simp only [changes, List.mem_cons, List.not_mem_nil, or_false] at h
  obtain rfl | rfl | rfl | rfl | rfl | rfl | rfl | rfl | rfl | rfl := h
  -- The fifth and the sixth change set a field as NestJS does, and the eighth is NestJS itself.
  case inr.inr.inr.inr.inl => exact ⟨hnest, hlower, fun _ => rfl⟩
  case inr.inr.inr.inr.inr.inl => exact ⟨hnest, fun _ => rfl, hdate⟩
  case inr.inr.inr.inr.inr.inr.inr.inl => exact ⟨fun _ => rfl, fun _ => rfl, fun _ => rfl⟩
  all_goals exact ⟨hnest, hlower, hdate⟩

/-- The options keep to the conventions of NestJS, whatever the parameters are. -/
theorem followsNestJs_options (p : Parameters) : p.options.FollowsNestJs := by
  rw [options_eq_foldl]
  have hdefault : ({} : GenerationOptions).FollowsNestJs := ⟨by decide, by decide, by decide⟩
  exact GenerationOptions.foldl_apply_invariant (fun _ h _ => followsNestJs_set h) hdefault

/-! ## Texts -/

/-- The parameters of a text give each key its last value, so a text after another overrides it. The
options are the same for two texts that give each key one last value, and so for items in another
order if the last item of each key is still its last. They keep to the conventions of NestJS,
whatever else the text says. -/
theorem options_ofText :
    (∀ s key, (ofText s).lookup key = lastValue? s key) ∧
    (∀ s t key, (ofText (s ++ "," ++ t)).lookup key =
      ((ofText t).lookup key).or ((ofText s).lookup key)) ∧
    (∀ s t, (∀ key, lastValue? s key = lastValue? t key) →
      (ofText s).options = (ofText t).options) ∧
    (∀ s t, (items s).Perm (items t) → (∀ key, lastItem? s key = lastItem? t key) →
      (ofText s).options = (ofText t).options) ∧
    ∀ s, (ofText s).options.FollowsNestJs ∧
      ((ofText s).options.nestJs = true ↔ lastValue? s "nestJs" = some "true") := by
  have hvalues : ∀ s t, (∀ key, lastValue? s key = lastValue? t key) →
      (ofText s).options = (ofText t).options := by
    intro s t h
    refine options_congr fun key => ?_
    rw [lookup_ofText, lookup_ofText, h]
  refine ⟨lookup_ofText, lookup_ofText_append, hvalues, fun s t _ h => hvalues s t fun key => ?_,
    fun s => ⟨followsNestJs_options _, ?_⟩⟩
  · rw [lastValue?, lastValue?, h]
  · rw [← lookup_ofText]
    exact beq_iff_eq

/-- A key that stands twice, in a text, in one with the same items in another order, and in one that
has only the second: NestJS is what the second says, and time stamps do not become dates. -/
theorem options_ofText_of_repeated :
    let s := "nestJs=false,useDate=true,nestJs=true"
    let t := "useDate=true, nestJs=false,,nestJs=true"
    let u := " nestJs = true ,useDate=true"
    (items s).Perm (items t) ∧ (∀ key, lastItem? s key = lastItem? t key) ∧
      (ofText s).options = (ofText t).options ∧
      (∀ key, lastValue? s key = lastValue? u key) ∧ (ofText s).options = (ofText u).options ∧
      (ofText s).options.nestJs = true ∧ (ofText s).options.useDate = false := by
  intro s t u
  have hs : items s = ["nestJs=false", "useDate=true", "nestJs=true"] := by decide +kernel
  have ht : items t = ["useDate=true", "nestJs=false", "nestJs=true"] := by decide +kernel
  have hu : items u = ["nestJs = true", "useDate=true"] := by decide +kernel
  have hoff : splitItem "nestJs=false" = ("nestJs", "false") := by decide +kernel
  have hdate : splitItem "useDate=true" = ("useDate", "true") := by decide +kernel
  have hon : splitItem "nestJs=true" = ("nestJs", "true") := by decide +kernel
  have hspaced : splitItem "nestJs = true" = ("nestJs", "true") := by decide +kernel
  have hperm : (items s).Perm (items t) := by
    rw [hs, ht]
    exact .swap _ _ _
  have hitem : ∀ key, lastItem? s key = lastItem? t key := by
    intro key
    by_cases hkey : "nestJs" = key
    · simp [lastItem?, hs, ht, hoff, hdate, hon, ← hkey]
    · simp [lastItem?, hs, ht, List.filter_cons, hoff, hdate, hon, hkey]
  have hvalue : ∀ key, lastValue? s key = lastValue? u key := by
    intro key
    by_cases hkey : "nestJs" = key
    · simp [lastValue?, lastItem?, hs, hu, hoff, hdate, hon, hspaced, ← hkey]
    · simp [lastValue?, lastItem?, hs, hu, List.filter_cons, hoff, hdate, hon, hspaced, hkey]
  obtain ⟨-, -, hsame, hordered, hnest⟩ := options_ofText
  obtain ⟨hfollows, hiff⟩ := hnest s
  have hnestJs : (ofText s).options.nestJs = true := hiff.2 (by decide +kernel)
  exact ⟨hperm, hitem, hordered s t hperm hitem, hvalue, hsame s u hvalue, hnestJs,
    hfollows.useDate hnestJs⟩

end Parameters

end ModuleAssembly
