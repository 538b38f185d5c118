import ModuleAssembly.Generation.Comments
import ModuleAssembly.Proofs.Generation.References
import ModuleAssembly.Proofs.Generation.TypeNames

/-!
# Declarations by their source paths

The comments of a source name what they document by its way through the descriptor. Following the
way of a declared type gives the name that the type map has for it and that the generator declares
it under (`Generation.declarationName_path`, `Generation.forall₂_declared`); so it is with the
services. A way whose indices are in range and which leads to none of these has no name
(`Generation.declarationName_eq_none`).
-/

namespace ModuleAssembly

open Descriptor (Enum File Message Service)

namespace Generation

open TypeMap (DeclaredType TypePlace TypeBody typesIn typesOf)

/-! ## The ways of declared types -/

/-- The element at an index that counts from the front. -/
theorem element_natCast {α : Type} {xs : List α} {i : Nat} {x : α} (h : xs[i]? = some x) :
    element xs i = .ok x := by
  have hfront : ¬(i : Int) < 0 := Int.not_lt.2 (Int.natCast_nonneg i)
  simp only [element, if_neg hfront, Int.toNat_natCast, h]

/-- From a message the rest of the way of a type in it leads to its generated name. -/
theorem exists_nameInside (f : File) {p : TypePlace} {m : Message} {d : DeclaredType}
    (h : d ∈ typesIn p m) :
    ∃ rest, d.place.path = p.path ++ rest ∧
      nameInside ((p.scope f).generatedName m.name) m rest = .ok (some (d.generatedName f)) := by
  refine TypeMap.typesIn_induction (motive := fun p m d => ∃ rest,
    d.place.path = p.path ++ rest ∧
      nameInside ((p.scope f).generatedName m.name) m rest = .ok (some (d.generatedName f)))
    ?_ ?_ ?_ h
  · intro p m
    exact ⟨[], (List.append_nil _).symm, by rw [nameInside]; rfl⟩
  · intro p m i e he
    refine ⟨[4, i], by simp [TypePlace.inside, TypePlace.nth], ?_⟩
    rw [nameInside, element_natCast he, DeclaredType.generatedName, TypePlace.scope_nth,
      TypePlace.scope_inside]
    rfl
  · intro p m i inner d hinner _ ih
    obtain ⟨rest, hpath, hname⟩ := ih
    refine ⟨3 :: i :: rest, by simp [hpath, TypePlace.inside, TypePlace.nth], ?_⟩
    rw [TypePlace.scope_nth, TypePlace.scope_inside] at hname
    rw [nameInside, element_natCast hinner]
    exact hname

/-- The way of a declared type leads to its generated name. -/
theorem declarationName_path {f : File} {d : DeclaredType} (h : d ∈ typesOf f) :
    declarationName f d.place.path = .ok (some (d.generatedName f)) := by
  rcases TypeMap.mem_typesOf.1 h with ⟨i, e, he, rfl⟩ | ⟨i, m, hm, hd⟩
  · rw [declarationName, element_natCast he, DeclaredType.generatedName_eq]
    rfl
  · obtain ⟨rest, hpath, hname⟩ := exists_nameInside f hd
    have hown : (TypePlace.scope f ⟨[], [4, i], false⟩).generatedName m.name = m.name :=
      String.empty_append
    rw [hown] at hname
    rw [hpath, List.cons_append, List.singleton_append, declarationName, element_natCast hm]
    exact hname

/-- The way of a service leads to its name. -/
theorem declarationName_service {f : File} {i : Nat} {s : Service} (h : f.services[i]? = some s) :
    declarationName f [6, i] = .ok (some s.name) := by
  rw [declarationName, element_natCast h]
  rfl

/-! ## Other ways -/

/-- On the rest of a way, from a message, the indices of messages and enumerations are in range. -/
def InRangeInside (m : Message) : List Int → Prop
  | 3 :: index :: rest =>
    ∃ (i : Nat) (inner : Message), index = i ∧ m.nested[i]? = some inner ∧ InRangeInside inner rest
  | 4 :: index :: _ => ∃ (i : Nat) (e : Enum), index = i ∧ m.enums[i]? = some e
  | _ => True

/-- On a way from a file the indices of messages, enumerations and services are in range. -/
def InRange (f : File) : List Int → Prop
  | 4 :: index :: rest =>
    ∃ (i : Nat) (m : Message), index = i ∧ f.messages[i]? = some m ∧ InRangeInside m rest
  | 5 :: index :: _ => ∃ (i : Nat) (e : Enum), index = i ∧ f.enums[i]? = some e
  | 6 :: index :: _ => ∃ (i : Nat) (s : Service), index = i ∧ f.services[i]? = some s
  | _ => True

/-- From a message the rest of a way that leads to no type in it leads to no name. -/
theorem nameInside_eq_none {p : TypePlace} {name : String} {m : Message} {rest : List Int}
    (hrange : InRangeInside m rest) (h : ∀ d ∈ typesIn p m, d.place.path ≠ p.path ++ rest) :
    nameInside name m rest = .ok none := by
  fun_induction nameInside name m rest generalizing p with
  | case1 name m => exact absurd (List.append_nil _).symm (h _ (TypeMap.mem_typesIn.2 (.inl rfl)))
  | case2 name m index rest ih =>
    obtain ⟨i, inner, rfl, hinner, hrange⟩ := hrange
    have hnone := ih inner (p := (p.inside m 3).nth i) hrange (fun d hd hpath =>
      h d (TypeMap.mem_typesIn.2 (.inr (.inr ⟨i, inner, hinner, hd⟩)))
        (by simpa [TypePlace.inside, TypePlace.nth] using hpath))
    rw [element_natCast hinner]
    exact hnone
  | case3 name m index =>
    obtain ⟨i, e, rfl, he⟩ := hrange
    refine absurd ?_ (h _ (TypeMap.mem_typesIn.2 (.inr (.inl ⟨i, e, he, rfl⟩))))
    simp [TypePlace.inside, TypePlace.nth]
  | case4 => rfl

/-- A way that leads to no type and no service of a file leads to no name, if its indices are in
range. -/
theorem declarationName_eq_none {f : File} {path : List Int} (hrange : InRange f path)
    (htypes : ∀ d ∈ typesOf f, d.place.path ≠ path) (hservices : ∀ i : Nat, path ≠ [6, (i : Int)]) :
    declarationName f path = .ok none := by
  unfold declarationName
  split
  · obtain ⟨i, s, rfl, -⟩ := hrange
    exact absurd rfl (hservices i)
  · obtain ⟨i, e, rfl, he⟩ := hrange
    exact absurd rfl (htypes _ (TypeMap.mem_typesOf.2 (.inl ⟨i, e, he, rfl⟩)))
  · obtain ⟨i, m, rfl, hm, hrange⟩ := hrange
    rw [element_natCast hm]
    exact nameInside_eq_none (p := ⟨[], [4, i], false⟩) hrange
      fun d hd => htypes d (TypeMap.mem_typesOf.2 (.inr ⟨i, m, hm, hd⟩))
  · rfl

/-! ## What is declared -/

/-- What declares a type under a name: an interface for a message, an enumeration for an
enumeration. -/
inductive Declares (name : String) : TypeBody → Declaration → Prop
  /-- A message. -/
  | message (m : Message) (x : Interface) (h : x.name = name) :
    Declares name (.message m) (.interface x)
  /-- An enumeration. -/
  | enumeration (e : Enum) (x : Enumeration) (h : x.name = name) :
    Declares name (.enumeration e) (.enumeration x)

variable {types : TypeMap} {options : GenerationOptions}

/-- What the generator makes of a type declares it under its generated name. -/
theorem declares_of_declare {f : File} {d : DeclaredType} {x : Declaration}
    (h : declare types options f d = .ok x) : Declares (d.generatedName f) d.body x := by
  obtain ⟨place, m | e⟩ := d
  · obtain ⟨properties, -, hx⟩ := Fault.exists_of_bind_eq_ok h
    rw [← Except.ok.inj hx]
    exact .message m _ rfl
  · rw [← Except.ok.inj h]
    exact .enumeration e _ rfl

/-- What a generated file declares: its package, one by one the types that are generated, and one by
one its services. -/
theorem forall₂_declared {f : File} {model : FileModel} (h : file types options f = .ok model) :
    ∃ own services, model.declarations = packageConstant f :: (own ++ services) ∧
      List.Forall₂ (fun d x => declare types options f d = .ok x ∧
          Declares (d.generatedName f) d.body x)
        ((typesOf f).filter DeclaredType.isGenerated) own ∧
      List.Forall₂ (fun s x => service types options s = .ok x ∧
          ∃ i : Interface, x = .interface i ∧ i.name = s.name)
        f.services services := by
  obtain ⟨inner, services, hfrom⟩ := exists_generatedFrom h
  refine ⟨_, services, hfrom.declarations_eq, ?_, ?_⟩
  · refine (Fault.forall₂_of_mapM_eq_ok hfrom.declareAll_eq).imp fun d x hx => ?_
    exact ⟨hx, declares_of_declare hx⟩
  · refine (Fault.forall₂_of_mapM_eq_ok hfrom.services_eq).imp fun s x hx => ⟨hx, ?_⟩
    obtain ⟨methods, -, hinterface⟩ := Fault.exists_of_bind_eq_ok hx
    exact ⟨_, (Except.ok.inj hinterface).symm, rfl⟩

/-- Suppose that a file declares no full name twice. The way of a type leads to the name that the
type map has for it, and the generator declares the type under this name, unless it is a map entry
or inside one. The way of a service leads to the name of its interface. All other ways whose indices
are in range lead to no name. -/
theorem declarationName_agrees {f : File} (hdistinct : (TypeMap.fullNames [f]).Nodup) :
    (∀ d ∈ typesOf f, declarationName f d.place.path = .ok (some (d.generatedName f)) ∧
      ∃ s, (TypeMap.ofFiles [f]).find? (d.fullName f) = some s ∧ s.name = d.generatedName f) ∧
    (∀ (i : Nat) s, f.services[i]? = some s → declarationName f [6, i] = .ok (some s.name)) ∧
    (∀ types options model, file types options f = .ok model →
      ∃ own services, model.declarations = packageConstant f :: (own ++ services) ∧
        List.Forall₂ (fun d x => declare types options f d = .ok x ∧
            Declares (d.generatedName f) d.body x)
          ((typesOf f).filter DeclaredType.isGenerated) own ∧
        List.Forall₂ (fun s x => service types options s = .ok x ∧
            ∃ i : Interface, x = .interface i ∧ i.name = s.name)
          f.services services) ∧
    ∀ path, InRange f path → (∀ d ∈ typesOf f, d.place.path ≠ path) →
      (∀ i : Nat, path ≠ [6, (i : Int)]) → declarationName f path = .ok none := by
  refine ⟨fun d hd => ⟨declarationName_path hd, d.symbol f, ?_, rfl⟩,
    fun i s hs => declarationName_service hs, fun types options model h => forall₂_declared h,
    fun path hrange htypes hservices => declarationName_eq_none hrange htypes hservices⟩
  exact TypeMap.find?_fullName hdistinct (List.mem_singleton_self f) hd

/-- A file with an enumeration in a message in a message, a map entry with a message in it, and a
service: the ways to these and to a field. Three types are generated. -/
theorem declarationName_agrees_of_nested :
    let kind : Enum := { name := "Kind" }
    let part : Message := { name := "Part", fields := [{ name := "id" }], enums := [kind] }
    let entry : Message := { name := "PartsEntry", nested := [{ name := "Odd" }], mapEntry := true }
    let item : Message := { name := "Item", nested := [entry, part] }
    let f : File :=
      { name := "shop.proto", package := "shop", messages := [item], services := [{ name := "S" }] }
    (TypeMap.fullNames [f]).Nodup ∧
      declarationName f [4, 0, 3, 1, 4, 0] = .ok (some "Item_Part_Kind") ∧
      (∃ s, (TypeMap.ofFiles [f]).find? ".shop.Item.Part.Kind" = some s ∧
        s.name = "Item_Part_Kind") ∧
      declarationName f [4, 0, 3, 0, 3, 0] = .ok (some "Item_PartsEntry_Odd") ∧
      declarationName f [6, 0] = .ok (some "S") ∧
      (∃ model own services, file [] {} f = .ok model ∧
        model.declarations = packageConstant f :: (own ++ services) ∧ own.length = 3 ∧
        services.length = 1) ∧
      declarationName f [4, 0, 3, 1, 2, 0] = .ok none := by
  intro kind part entry item f
  have hdistinct : (TypeMap.fullNames [f]).Nodup := by decide +kernel
  obtain ⟨htypes, hservices, hfile, hother⟩ := declarationName_agrees hdistinct
  have hmem : ∀ (i : Nat) inner, item.nested[i]? = some inner →
      ∀ d ∈ typesIn ⟨["Item"], [4, 0, 3, i], false⟩ inner, d ∈ typesOf f := fun i inner hi d hd =>
    TypeMap.mem_typesOf.2 (.inr ⟨0, item, rfl, TypeMap.mem_typesIn.2 (.inr (.inr
      ⟨i, inner, hi, hd⟩))⟩)
  obtain ⟨hkind, hfound⟩ := htypes _ (hmem 1 part rfl _ (TypeMap.mem_typesIn.2 (.inr (.inl
    ⟨0, kind, rfl, rfl⟩))))
  obtain ⟨hodd, -⟩ := htypes _ (hmem 0 entry rfl _ (TypeMap.mem_typesIn.2 (.inr (.inr
    ⟨0, { name := "Odd" }, rfl, TypeMap.mem_typesIn.2 (.inl rfl)⟩))))
  have hresult : ((file [] {} f).map fun _ => ()) = .ok () := by decide +kernel
  obtain ⟨model, hmodel, -⟩ := Fault.exists_of_map_eq_ok hresult
  obtain ⟨own, services, hdeclarations, hown, hserviced⟩ := hfile [] {} model hmodel
  exact ⟨hdistinct, hkind, hfound, hodd, hservices 0 { name := "S" } rfl,
    ⟨model, own, services, hmodel, hdeclarations, hown.length_eq.symm, hserviced.length_eq.symm⟩,
    hother _ ⟨0, item, rfl, rfl, 1, part, rfl, rfl, trivial⟩ (by decide +kernel)
      (fun i => by simp)⟩

end Generation

end ModuleAssembly
