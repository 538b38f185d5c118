import ModuleAssembly.Proofs.Code.Printed
import ModuleAssembly.Proofs.Generation.References

/-!
# What generated files print

Of what a generated file prints, its package is a text, and the rest are the numbers of
enumerations. These have thirty-two bits, so they are written; a generated file prints nothing
without a text (`Generation.ofPrinted_file`).
-/

namespace ModuleAssembly

open Descriptor (Enum Field File Message Service)

/-- What is printed for the elements of a list has no fault if none of them has. -/
theorem Fault.ofPrinted_flatMap {α : Type} {printed : α → List Argument} {xs : List α}
    (h : ∀ x ∈ xs, ofPrinted (printed x) = none) : ofPrinted (xs.flatMap printed) = none := by
  rw [ofPrinted_eq_none_iff]
  intro a ha
  obtain ⟨x, hx, hmem⟩ := List.mem_flatMap.1 ha
  exact ofPrinted_eq_none_iff.1 (h x hx) a hmem

/-- An integer of thirty-two bits has a text. -/
theorem Argument.not_hasNoText_toInt (n : Int32) (fault : Fault) :
    ¬HasNoText (.int n.toInt) fault := by
  rintro ⟨-, hlong⟩
  have hsmall : n.toInt.natAbs < 10 ^ Text.longestInteger := by
    have hlow := n.le_toInt
    have hhigh := n.toInt_lt
    calc n.toInt.natAbs < 10 ^ 10 := by omega
      _ ≤ 10 ^ Text.longestInteger := Nat.pow_le_pow_right (by decide) (by decide)
  exact absurd hlong (Nat.not_le.2 hsmall)

namespace Generation

open TypeMap (DeclaredType Scope)

variable {types : TypeMap} {options : GenerationOptions} {f : File}

/-- The numbers of an enumeration have texts. -/
theorem ofPrinted_enumeration (options : GenerationOptions) (s : Scope) (e : Enum) :
    Fault.ofPrinted (enumeration options s e).printed = none := by
  refine Fault.ofPrinted_flatMap fun c hc => ?_
  -- The constant for unknown values has a number of its own, the others those of the descriptor.
  obtain ⟨name, n, rfl⟩ : ∃ name, ∃ n : Int32,
      c = { name, value := some (constantValue options name n.toInt) } := by
    rcases List.mem_append.1 hc with hvalue | hunknown
    · obtain ⟨v, -, rfl⟩ := List.mem_map.1 hvalue
      exact ⟨v.name, v.number, rfl⟩
    · split at hunknown
      · exact ⟨unrecognized, -1, List.mem_singleton.1 hunknown⟩
      · cases hunknown
  unfold Constant.printed constantValue
  cases options.stringEnums with
  | true => rfl
  | false =>
    refine Fault.ofPrinted_eq_none_iff.2 fun a ha => ?_
    rw [List.mem_singleton.1 ha]
    exact Argument.not_hasNoText_toInt n

/-- The property of a field has no first value. -/
theorem blocks_of_fieldProperty {entries : List (String × Message)} {g : Field} {p : Property}
    (h : fieldProperty types options entries g = .ok p) : p.blocks = [] := by
  obtain ⟨found, -, hproperty⟩ := Fault.exists_of_bind_eq_ok h
  cases found with
  | plain g =>
    obtain ⟨type, -, hp⟩ := Fault.exists_of_bind_eq_ok hproperty
    rw [← Except.ok.inj hp]
    rfl
  | map g key value =>
    obtain ⟨type, -, hp⟩ := Fault.exists_of_bind_eq_ok hproperty
    rw [← Except.ok.inj hp]
    rfl

/-- What the generator makes of a type prints nothing without a text. -/
theorem ofPrinted_declare {d : DeclaredType} {x : Declaration}
    (h : declare types options f d = .ok x) : Fault.ofPrinted x.printed = none := by
  obtain ⟨place, m | e⟩ := d
  · obtain ⟨properties, hproperties, hinterface⟩ := Fault.exists_of_bind_eq_ok h
    obtain rfl := Except.ok.inj hinterface
    have hblocks : properties.flatMap Property.blocks = [] := by
      refine List.flatMap_eq_nil_iff.2 fun p hp => ?_
      obtain ⟨g, -, hproperty⟩ := Fault.exists_of_mem_results hproperties hp
      exact blocks_of_fieldProperty hproperty
    show Fault.ofPrinted ((properties.flatMap Property.blocks).flatMap CodeBlock.printed) = none
    rw [hblocks]
    rfl
  · obtain rfl := Except.ok.inj h
    exact ofPrinted_enumeration options _ e

/-- The interface of a service prints nothing. -/
theorem printed_of_service {s : Service} {x : Declaration}
    (h : service types options s = .ok x) : x.printed = [] := by
  obtain ⟨methods, -, hinterface⟩ := Fault.exists_of_bind_eq_ok h
  rw [← Except.ok.inj hinterface]
  rfl

/-- The constant that holds the package prints it. -/
theorem printed_packageConstant (f : File) :
    (packageConstant f).printed = [.text f.package] := by
  show CodeBlock.printed { format := "%S", args := [.text f.package] } ++ [] = [.text f.package]
  rw [CodeBlock.printed, segments_package]
  rfl

/-- The code that makes the runtime use the `long` package prints nothing. -/
theorem printed_longSetup : longSetup.printed = [] := by
  rw [CodeBlock.printed, List.flatMap_eq_nil_iff]
  decide +kernel

/-- A generated file prints nothing without a text. -/
theorem ofPrinted_file {model : FileModel} (h : file types options f = .ok model) :
    Fault.ofPrinted model.printed = none := by
  obtain ⟨inner, services, hfrom⟩ := exists_generatedFrom h
  have hdeclarations : ∀ x ∈ model.declarations, Fault.ofPrinted x.printed = none := by
    rw [hfrom.declarations_eq]
    refine List.forall_mem_cons.2 ⟨by rw [printed_packageConstant]; rfl, fun x hx => ?_⟩
    rcases List.mem_append.1 hx with hfront | hservice
    · rcases List.mem_append.1 hfront with henum | hmessage
      · obtain ⟨e, -, rfl⟩ := List.mem_map.1 henum
        exact ofPrinted_enumeration options _ e
      · obtain ⟨d, -, hdeclare⟩ := hfrom.exists_of_mem_inner hmessage
        exact ofPrinted_declare hdeclare
    · obtain ⟨s, -, hresult⟩ := Fault.exists_of_mem_results hfrom.services_eq hservice
      rw [printed_of_service hresult]
      rfl
  have hblocks : ∀ b ∈ model.codeBlocks, Fault.ofPrinted b.printed = none := by
    intro b hb
    rw [hfrom.codeBlocks_subset b hb, printed_longSetup]
    rfl
  rw [FileModel.printed, Fault.ofPrinted_append, Fault.ofPrinted_flatMap hdeclarations,
    Fault.ofPrinted_flatMap hblocks]
  rfl

end Generation

end ModuleAssembly
