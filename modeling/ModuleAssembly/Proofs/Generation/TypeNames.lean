import ModuleAssembly.Proofs.Association
import ModuleAssembly.Proofs.Generation.DeclaredTypes
import ModuleAssembly.Proofs.Text.Cut

/-!
# Symbols of different types

The symbol of a type keeps less than its full name: the names of the messages around it and its own
are joined with underscores, which they may have themselves, and the file counts only by the module
that is generated for it. So two types become one symbol exactly if their joined names and their
modules agree (`TypeMap.symbol_eq_iff`). Names without underscores can be read back from the joined
one (`TypeMap.eq_of_joined_eq`), and files with different names have different modules unless one
name is the other followed by `.proto` (`Generation.cases_of_moduleName_eq`).
-/

namespace ModuleAssembly

open Descriptor (Enum File Message)

/-! ## Modules of files -/

/-- A text from which an end is removed had this end. -/
theorem Text.eq_append_of_before? {tail s rest : String} (h : before? tail s = some rest) :
    s = rest ++ tail := by
  unfold before? at h
  split at h
  · next hsuffix =>
    obtain ⟨front, hfront⟩ := List.isSuffixOf_iff_suffix.1 hsuffix
    have hrest := Option.some.inj h
    rw [← hfront, List.length_append, Nat.add_sub_cancel, List.take_left] at hrest
    rw [← hrest, ← String.toList_inj, String.toList_append, String.toList_ofList, hfront]
  · cases h

/-- Two files with one module have one name, or the name of one is that of the other followed by the
extension. -/
theorem Generation.cases_of_moduleName_eq {a b : String} (h : moduleName a = moduleName b) :
    a = b ∨ a = b ++ ".proto" ∨ b = a ++ ".proto" := by
  unfold moduleName Text.withoutEnd at h
  cases ha : Text.before? ".proto" a with
  | none =>
    cases hb : Text.before? ".proto" b with
    | none =>
      rw [ha, hb] at h
      exact .inl h
    | some rest =>
      rw [ha, hb] at h
      have hname : a = rest := h
      exact .inr (.inr (hname ▸ Text.eq_append_of_before? hb))
  | some rest =>
    cases hb : Text.before? ".proto" b with
    | none =>
      rw [ha, hb] at h
      have hname : rest = b := h
      exact .inr (.inl (hname ▸ Text.eq_append_of_before? ha))
    | some rest' =>
      rw [ha, hb] at h
      have hname : rest = rest' := h
      left
      rw [Text.eq_append_of_before? ha, Text.eq_append_of_before? hb, hname]

namespace TypeMap

/-! ## Joined names -/

/-- The names in a scope of messages, joined. -/
theorem generatedName_foldl_inside (s : Scope) (around : List String) (name : String) :
    (around.foldl Scope.inside s).generatedName name =
      s.generated ++ String.intercalate "_" (around ++ [name]) := by
  induction around generalizing s with
  | nil => rfl
  | cons first around ih =>
    rw [List.foldl_cons, ih, List.cons_append, String.intercalate_cons_of_ne_nil (by simp)]
    simp only [Scope.inside, Scope.generatedName, String.append_assoc]

/-- The generated name of a type: the names of the messages around it and its own, with underscores
between. -/
theorem DeclaredType.generatedName_eq (f : File) (d : DeclaredType) :
    d.generatedName f = String.intercalate "_" d.names := by
  rw [generatedName, TypePlace.scope, generatedName_foldl_inside]
  exact String.empty_append

/-- Two types of a file with the same names have the same full name. -/
theorem DeclaredType.fullName_congr (f : File) {d e : DeclaredType} (h : d.names = e.names) :
    d.fullName f = e.fullName f := by
  obtain ⟨haround, hname⟩ := List.append_inj' h rfl
  rw [fullName, fullName, TypePlace.scope, TypePlace.scope, haround, (List.cons.inj hname).1]

/-- Names without underscores are what their joined name says. -/
theorem eq_of_joined_eq {names others : List String} (hnames : names ≠ []) (hothers : others ≠ [])
    (hplain : ∀ name ∈ names, '_' ∉ name.toList) (hplain' : ∀ name ∈ others, '_' ∉ name.toList)
    (h : String.intercalate "_" names = String.intercalate "_" others) : names = others := by
  have hread : Text.parts '_' (String.intercalate "_" names) = names :=
    Text.parts_intercalate hnames hplain
  have hread' : Text.parts '_' (String.intercalate "_" others) = others :=
    Text.parts_intercalate hothers hplain'
  rw [← hread, h, hread']

/-! ## Symbols -/

/-- Two types become one symbol exactly if their files have one module and their names agree once
they are joined. -/
theorem symbol_eq_iff {f g : File} {d e : DeclaredType} :
    d.symbol f = e.symbol g ↔ Generation.moduleName f.name = Generation.moduleName g.name ∧
      String.intercalate "_" d.names = String.intercalate "_" e.names := by
  unfold DeclaredType.symbol modulePath
  rw [Symbol.mk.injEq, DeclaredType.generatedName_eq, DeclaredType.generatedName_eq,
    String.append_right_inj]
  exact and_comm

/-- The full names of all types that files declare. -/
def fullNames (files : List File) : List String :=
  files.flatMap fun f => (typesOf f).map (DeclaredType.fullName f)

/-- The keys of the entries of files are the full names. -/
theorem keys_flatMap_fileEntries (files : List File) :
    (files.flatMap fileEntries).map (·.1) = fullNames files := by
  unfold fullNames
  rw [List.map_flatMap]
  refine List.flatMap_congr fun f _ => ?_
  rw [fileEntries_eq_map, List.map_map]
  rfl

/-- Where no full name is declared twice, the type map has the symbol of every type. -/
theorem find?_fullName {files : List File} (hdistinct : (fullNames files).Nodup) {f : File}
    (hf : f ∈ files) {d : DeclaredType} (hd : d ∈ typesOf f) :
    (ofFiles files).find? (d.fullName f) = some (d.symbol f) := by
  rw [← keys_flatMap_fileEntries] at hdistinct
  refine (Association.lookup_ofList_eq_some_iff hdistinct).2 ?_
  refine List.mem_flatMap.2 ⟨f, hf, ?_⟩
  rw [fileEntries_eq_map]
  exact List.mem_map.2 ⟨d, hd, rfl⟩

/-- Suppose that the files of a list have different names and that no full name is declared twice.
The type map knows every type, and gives two types one symbol exactly if their files have one module
and the joined names agree. So it keeps types of different full names apart if there is no
underscore in their names and neither of their files is named like the other followed by
`.proto`. -/
theorem find?_eq_find?_iff {files : List File} (hnames : (files.map (·.name)).Nodup)
    (hdistinct : (fullNames files).Nodup) :
    ∀ f ∈ files, ∀ g ∈ files, ∀ d ∈ typesOf f, ∀ e ∈ typesOf g,
      (∃ s t, (ofFiles files).find? (d.fullName f) = some s ∧
        (ofFiles files).find? (e.fullName g) = some t ∧
        (s = t ↔ Generation.moduleName f.name = Generation.moduleName g.name ∧
          String.intercalate "_" d.names = String.intercalate "_" e.names)) ∧
      (d.fullName f ≠ e.fullName g → (∀ name ∈ d.names ++ e.names, '_' ∉ name.toList) →
        f.name ≠ g.name ++ ".proto" → g.name ≠ f.name ++ ".proto" →
          (ofFiles files).find? (d.fullName f) ≠ (ofFiles files).find? (e.fullName g)) := by
  intro f hf g hg d hd e he
  have hfound := find?_fullName hdistinct hf hd
  have hfound' := find?_fullName hdistinct hg he
  refine ⟨⟨_, _, hfound, hfound', symbol_eq_iff⟩, ?_⟩
  intro hdifferent hplain hafter hbefore hsame
  rw [hfound, hfound', Option.some.injEq, symbol_eq_iff] at hsame
  obtain ⟨hmodule, hjoined⟩ := hsame
  -- The names of the files differ by more than the extension, so one module means one file.
  have hfile : f = g := by
    refine List.inj_on_of_nodup_map hnames hf hg ?_
    rcases Generation.cases_of_moduleName_eq hmodule with hname | hname | hname
    · exact hname
    · exact absurd hname hafter
    · exact absurd hname hbefore
  subst hfile
  rw [List.forall_mem_append] at hplain
  exact hdifferent (DeclaredType.fullName_congr f
    (eq_of_joined_eq (by simp [DeclaredType.names]) (by simp [DeclaredType.names]) hplain.1 hplain.2
      hjoined))

/-- Messages of the same names in two files: the types are kept apart by their modules. -/
theorem find?_eq_find?_iff_of_two_files :
    let outer : Message := { name := "Outer", nested := [{ name := "Inner" }] }
    let f : File := { name := "a.proto", package := "p", messages := [outer] }
    let g : File := { name := "b.proto", package := "q", messages := [outer] }
    ([f, g].map (·.name)).Nodup ∧ (fullNames [f, g]).Nodup ∧
      (∃ s t, (ofFiles [f, g]).find? ".p.Outer.Inner" = some s ∧
        (ofFiles [f, g]).find? ".q.Outer.Inner" = some t ∧
        (s = t ↔ Generation.moduleName "a.proto" = Generation.moduleName "b.proto" ∧
          String.intercalate "_" ["Outer", "Inner"] = String.intercalate "_" ["Outer", "Inner"])) ∧
      (ofFiles [f, g]).find? ".p.Outer.Inner" ≠ (ofFiles [f, g]).find? ".q.Outer.Inner" := by
  intro outer f g
  have hnames : ([f, g].map (·.name)).Nodup := by decide
  have hdistinct : (fullNames [f, g]).Nodup := by decide +kernel
  let d : DeclaredType := ⟨⟨["Outer"], [4, 0, 3, 0], false⟩, .message { name := "Inner" }⟩
  have hinner : d ∈ typesIn ⟨[], [4, 0], false⟩ outer :=
    mem_typesIn.2 (.inr (.inr ⟨0, { name := "Inner" }, rfl, mem_typesIn.2 (.inl rfl)⟩))
  have hf : d ∈ typesOf f := mem_typesOf.2 (.inr ⟨0, outer, rfl, hinner⟩)
  have hg : d ∈ typesOf g := mem_typesOf.2 (.inr ⟨0, outer, rfl, hinner⟩)
  obtain ⟨hsymbols, happart⟩ := find?_eq_find?_iff hnames hdistinct f List.mem_cons_self g
    (List.mem_cons_of_mem f List.mem_cons_self) d hf d hg
  have hfull : d.fullName f = ".p.Outer.Inner" := by decide +kernel
  have hfull' : d.fullName g = ".q.Outer.Inner" := by decide +kernel
  rw [hfull, hfull'] at hsymbols happart
  exact ⟨hnames, hdistinct, hsymbols,
    happart (by decide) (by decide +kernel) (by decide) (by decide)⟩

/-- A message in a message and one with an underscore in its name become one symbol, and so do
messages of two files that are named alike but for the extension. -/
theorem find?_eq_find?_of_collision :
    let files : List File := [
      { name := "shop.proto"
        messages := [{ name := "A", nested := [{ name := "B" }] }, { name := "A_B" }] },
      { name := "shop", package := "stock", messages := [{ name := "A" }] }]
    (files.map (·.name)).Nodup ∧ (fullNames files).Nodup ∧
      fullNames files = [".A", ".A.B", ".A_B", ".stock.A"] ∧
      (ofFiles files).find? ".A.B" = some ⟨"A_B", "./shop"⟩ ∧
      (ofFiles files).find? ".A_B" = some ⟨"A_B", "./shop"⟩ ∧
      (ofFiles files).find? ".A" = some ⟨"A", "./shop"⟩ ∧
      (ofFiles files).find? ".stock.A" = some ⟨"A", "./shop"⟩ := by
  decide +kernel

end TypeMap

end ModuleAssembly
