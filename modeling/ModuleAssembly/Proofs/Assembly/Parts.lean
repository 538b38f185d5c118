import ModuleAssembly.Proofs.Assembly.Sections

/-!
# Parts of what is written

What is written for a part of a file stands in what is written for the file, as it is
(`Emission.IsPartOf`): the pieces of the part follow one another among those of the whole. So do
those of a code block in a declaration (`Declaration.isPartOf_of_mem_printedBlocks`), unless it is
the body of a method of an interface, of a member in its file (`FileModel.isPartOf_of_mem_members`),
and of an import statement (`FileModel.isPartOf_of_mem_specifiers`).
-/

namespace ModuleAssembly

open Emission (text withFreshLine)

namespace Emission

/-- Whether an emission is a part of another: if the other was not stopped, then the first was not
either, and its pieces stand among those of the other, one after the other. -/
def IsPartOf (e whole : Emission) : Prop :=
  whole.fault = none → e.fault = none ∧ e.items <:+: whole.items

namespace IsPartOf

variable {d e e' : Emission}

/-- An emission is a part of itself. -/
theorem refl : e.IsPartOf e :=
  fun h => ⟨h, List.infix_rfl⟩

/-- A part of a part is a part. -/
theorem trans (h : d.IsPartOf e) (h' : e.IsPartOf e') : d.IsPartOf e' := by
  intro hnone
  obtain ⟨he, hinside⟩ := h' hnone
  obtain ⟨hd, hpart⟩ := h he
  exact ⟨hd, hpart.trans hinside⟩

/-- A part of the first of two emissions is a part of both together. -/
theorem left (h : d.IsPartOf e) : d.IsPartOf (e ++ e') := by
  refine h.trans fun hnone => ?_
  obtain ⟨he, -⟩ := Output.fault_append_eq_none.1 hnone
  rw [Output.items_append e' he]
  exact ⟨he, (List.prefix_append _ _).isInfix⟩

/-- So is a part of the second. -/
theorem right (h : d.IsPartOf e) : d.IsPartOf (e' ++ e) := by
  refine h.trans fun hnone => ?_
  obtain ⟨he', he⟩ := Output.fault_append_eq_none.1 hnone
  rw [Output.items_append e he']
  exact ⟨he, (List.suffix_append _ _).isInfix⟩

/-- Each of several emissions is a part of all of them together. -/
theorem concat {es : List Emission} (h : e ∈ es) : e.IsPartOf (.concat es) := by
  obtain ⟨before, after, rfl⟩ := List.append_of_mem h
  rw [Output.concat_append, Output.concat_cons]
  exact IsPartOf.refl.left.right

/-- What one of several things is written as is a part of what they are written as together. -/
theorem concat_map {α : Type} {x : α} {xs : List α} (h : x ∈ xs) (f : α → Emission) :
    (f x).IsPartOf (.concat (xs.map f)) :=
  concat (List.mem_map_of_mem h)

/-- Each of several emissions is a part of all of them with a text between them. -/
theorem separated {es : List Emission} (h : e ∈ es) (sep : String) :
    e.IsPartOf (Emission.separated sep es) := by
  cases es with
  | nil => cases h
  | cons first others =>
    rcases List.mem_cons.1 h with rfl | hother
    · exact IsPartOf.refl.left
    · have hafter : (text sep ++ e).IsPartOf (.concat (others.map (text sep ++ ·))) :=
        concat_map hother _
      exact IsPartOf.refl.right.trans hafter.right

/-- A part of an emission is a part of it one level deeper. -/
theorem indented (h : d.IsPartOf e) : d.IsPartOf (Emission.indented e) :=
  h.right.left

/-- A part of an emission is a part of it with an end of its line. -/
theorem withFreshLine (h : d.IsPartOf e) : d.IsPartOf (Emission.withFreshLine e) :=
  h.left

/-- A part of a body that is not blank is a part of it in braces. -/
theorem braced {isBlank : Bool} (hblank : isBlank = false) (h : d.IsPartOf e) :
    d.IsPartOf (ModuleAssembly.braced isBlank e) := by
  rw [ModuleAssembly.braced, hblank]
  exact h.indented.right.left

end IsPartOf

end Emission

/-! ## Code -/

namespace CodeBlock

/-- Each segment of a block is written in it. -/
theorem isPartOf_of_mem_segments {b : CodeBlock} {s : Segment} (h : s ∈ b.segments.items) :
    s.emission.IsPartOf b.emission :=
  (Emission.IsPartOf.concat_map h Segment.emission).left

/-- A block is written after its equals sign. -/
theorem isPartOf_assignment (b : CodeBlock) : b.emission.IsPartOf (assignment (some b)) :=
  Emission.IsPartOf.refl.right

/-- A block is written in a body. -/
theorem isPartOf_bodyEmission (b : CodeBlock) : b.emission.IsPartOf b.bodyEmission :=
  Emission.IsPartOf.refl.withFreshLine.indented.right.left

end CodeBlock

/-- The block of a property of an interface or class is written with it. -/
theorem Property.isPartOf_memberEmission {p : Property} {b : CodeBlock} (h : b ∈ p.blocks) :
    b.emission.IsPartOf p.memberEmission := by
  have hinitial : p.initial = some b := Option.mem_toList.1 h
  rw [memberEmission, hinitial]
  exact b.isPartOf_assignment.right.left

/-- The block of a constant is written with it. -/
theorem Property.isPartOf_constantEmission {p : Property} {b : CodeBlock} (h : b ∈ p.blocks) :
    b.emission.IsPartOf p.constantEmission := by
  have hinitial : p.initial = some b := Option.mem_toList.1 h
  rw [constantEmission, hinitial]
  exact b.isPartOf_assignment.right.left

namespace Function

/-- The body of a function is written, if it may lack one. -/
theorem isPartOf_bodyOr {f : Function} {b : CodeBlock} (h : b ∈ f.blocks) (bodiless : String) :
    b.emission.IsPartOf (f.bodyOr bodiless) := by
  have hbody : f.body = some b := Option.mem_toList.1 h
  rw [bodyOr, hbody]
  exact b.isPartOf_bodyEmission

/-- The body of a method of a class is written with it. -/
theorem isPartOf_classEmission {f : Function} {b : CodeBlock} (h : b ∈ f.blocks) :
    b.emission.IsPartOf f.classEmission :=
  (isPartOf_bodyOr h _).right

/-- The body of a function is written with it. -/
theorem isPartOf_emission {f : Function} {b : CodeBlock} (h : b ∈ f.blocks) :
    b.emission.IsPartOf f.emission :=
  (isPartOf_bodyOr h _).right

end Function

/-! ## Declarations -/

/-- A property of an interface is written in it. -/
theorem Interface.isPartOf_of_mem_properties {d : Interface} {p : Property}
    (h : p ∈ d.properties) : p.memberEmission.IsPartOf d.emission := by
  have hblank : (d.properties.isEmpty && d.methods.isEmpty) = false := by
    simp [List.ne_nil_of_mem h]
  have hmembers := Emission.IsPartOf.concat_map h Property.memberEmission
  exact (hmembers.left.braced hblank).right

namespace Class

variable {d : Class}

/-- A property of a class is written in it. -/
theorem isPartOf_of_mem_properties {p : Property} (h : p ∈ d.properties) :
    p.memberEmission.IsPartOf d.emission := by
  have hblank : (d.properties.isEmpty && d.methods.isEmpty) = false := by
    simp [List.ne_nil_of_mem h]
  have hmembers := Emission.IsPartOf.concat_map h Property.memberEmission
  exact (hmembers.left.left.braced hblank).right

/-- A method of a class is written in it. -/
theorem isPartOf_of_mem_methods {f : Function} (h : f ∈ d.methods) :
    f.classEmission.IsPartOf d.emission := by
  have hblank : (d.properties.isEmpty && d.methods.isEmpty) = false := by
    simp [List.ne_nil_of_mem h]
  have hmethod : f.classEmission ∈ d.methods.map Function.classEmission := List.mem_map_of_mem h
  have hmembers := Emission.IsPartOf.separated hmethod "\n"
  exact (hmembers.right.braced hblank).right

end Class

/-- A constant of an enumeration is written in it. -/
theorem Enumeration.isPartOf_of_mem_constants {d : Enumeration} {c : Constant}
    (h : c ∈ d.constants) : c.emission.IsPartOf d.emission :=
  (Emission.IsPartOf.concat_map h Constant.emission).indented.right.left

/-- These blocks are written in the declaration. -/
theorem Declaration.isPartOf_of_mem_printedBlocks {d : Declaration} {b : CodeBlock}
    (h : b ∈ d.printedBlocks) : b.emission.IsPartOf d.bodyEmission := by
  cases d with
  | interface d =>
    obtain ⟨p, hp, hb⟩ := List.mem_flatMap.1 h
    exact (Property.isPartOf_memberEmission hb).trans (Interface.isPartOf_of_mem_properties hp)
  | classType d =>
    rcases List.mem_append.1 h with hproperties | hmethods
    · obtain ⟨p, hp, hb⟩ := List.mem_flatMap.1 hproperties
      exact (Property.isPartOf_memberEmission hb).trans (Class.isPartOf_of_mem_properties hp)
    · obtain ⟨f, hf, hb⟩ := List.mem_flatMap.1 hmethods
      exact (Function.isPartOf_classEmission hb).trans (Class.isPartOf_of_mem_methods hf)
  | enumeration d => cases h
  | function d => exact Function.isPartOf_emission h
  | constant d => exact Property.isPartOf_constantEmission h
  | typeAlias d => cases h

/-! ## Files -/

namespace FileModel

variable {f : FileModel} {base : List String} {imports : List Import} {docs : Docs}

/-- Every member of a file is written in it. -/
theorem isPartOf_of_mem_members {m : Member} (h : m ∈ f.members) :
    (m.emission docs).IsPartOf (f.emission base imports docs) := by
  have hsection : withFreshLine (m.emission docs) ∈ f.sections base imports docs :=
    List.mem_append_right _ (List.mem_map_of_mem (mem_emissionOrder_of_mem h))
  exact Emission.IsPartOf.refl.withFreshLine.trans (Emission.IsPartOf.separated hsection "\n")

/-- The statement for each specifier of the imports is written in the file. -/
theorem isPartOf_of_mem_specifiers {placed : List (String × Import)} {specifier : String}
    (hplaced : imports.mapM (Import.placed base f.path) = .ok placed)
    (h : specifier ∈ Import.specifiers placed) :
    (Import.statement specifier (Import.placedAt specifier placed)).IsPartOf
      (f.emission base imports docs) := by
  obtain ⟨before, after, -, hemission⟩ := f.exists_emission_eq docs hplaced h
  rw [hemission]
  exact Emission.IsPartOf.refl.right.left

end FileModel

end ModuleAssembly
