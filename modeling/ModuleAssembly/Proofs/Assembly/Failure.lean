import ModuleAssembly.Proofs.Assembly.Names
import ModuleAssembly.Proofs.Code.References
import ModuleAssembly.Validation.Members

/-!
# Files that cannot be assembled

There are three reasons why a file whose code blocks satisfy what is asked of them, as those of a
file that is read from a document do (`FileModel.isChecked_of_valid`), cannot be assembled. A block
takes a bad reference for a type; then the symbols of the file cannot be collected. A symbol comes
from the module path `./`, which names the directory of the generated files and no module; then the
file cannot have an import for it (`Import.block_cases`). Or something that the file prints has no
text (`FileModel.HasUnprintable`). All else that is written has no fault of its own
(`FileModel.fault_emission`).
-/

namespace ModuleAssembly

/-! ## Placing imports -/

/-- A text begins with another exactly if something follows that. -/
theorem Text.after?_eq_some_iff {start s rest : String} :
    after? start s = some rest ↔ s = start ++ rest := by
  unfold after?
  constructor
  · intro h
    split at h
    · next hprefix =>
      obtain ⟨tail, htail⟩ := List.isPrefixOf_iff_prefix.1 hprefix
      simp only [← htail, List.drop_left, Option.some.injEq] at h
      rw [← h, ← String.ofList_toList (s := s), ← htail]
      simp
    · cases h
  · rintro rfl
    simp

namespace Path

/-- Only the path of the generated files themselves has no specifier. -/
theorem specifier_eq (base : List String) (module file : String) :
    (module = localMark ∧ specifier base module file = .error .emptyPath) ∨
      (module ≠ localMark ∧ ∃ result, specifier base module file = .ok result) := by
  unfold specifier
  cases hafter : Text.after? localMark module with
  | none =>
    refine .inr ⟨?_, module, rfl⟩
    rintro rfl
    cases hafter
  | some path =>
    have hmodule := Text.after?_eq_some_iff.1 hafter
    by_cases hpath : path = ""
    · exact .inl ⟨by rw [hmodule, hpath, String.append_empty], by simp [hpath]⟩
    · refine .inr ⟨?_, _, if_neg hpath⟩
      intro hroot
      rw [hroot, Text.after?_eq_some_iff.2 String.append_empty.symm] at hafter
      exact hpath (Option.some.inj hafter).symm

end Path

namespace Import

/-- Imports can be placed exactly if none is from the path of the generated files themselves. -/
theorem mapM_placed_cases (base : List String) (file : String) (imports : List Import) :
    ((∃ i ∈ imports, i.symbol.module = Path.localMark) ∧
        imports.mapM (placed base file) = .error .emptyPath) ∨
      ((∀ i ∈ imports, i.symbol.module ≠ Path.localMark) ∧
        ∃ result, imports.mapM (placed base file) = .ok result) := by
  induction imports with
  | nil => exact .inr ⟨by simp, [], rfl⟩
  | cons i imports ih =>
    rw [List.mapM_cons]
    rcases Path.specifier_eq base i.symbol.module file with ⟨hroot, herror⟩ | ⟨hroot, sp, hsp⟩
    · refine .inl ⟨⟨i, List.mem_cons_self, hroot⟩, ?_⟩
      simp [placed, herror, Except.map, bind, Except.bind]
    · rcases ih with ⟨⟨j, hj, hjroot⟩, herror⟩ | ⟨hall, result, hresult⟩
      · refine .inl ⟨⟨j, List.mem_cons_of_mem i hj, hjroot⟩, ?_⟩
        simp [placed, hsp, herror, Except.map, bind, Except.bind]
      · refine .inr ⟨List.forall_mem_cons.2 ⟨hroot, hall⟩, (sp, i) :: result, ?_⟩
        simp [placed, hsp, hresult, Except.map, bind, Except.bind, pure, Except.pure]

/-- The import statements of a file are stopped exactly if an import is from the path of the
generated files themselves. -/
theorem block_cases (base : List String) (file : String) (imports : List Import) :
    ((∃ i ∈ imports, i.symbol.module = Path.localMark) ∧
        (block base file imports).fault = some .emptyPath) ∨
      ((∀ i ∈ imports, i.symbol.module ≠ Path.localMark) ∧
        (block base file imports).fault = none) := by
  rcases mapM_placed_cases base file imports with ⟨hroot, hplaced⟩ | ⟨hroot, result, hplaced⟩
  · refine .inl ⟨hroot, ?_⟩
    rw [block, hplaced]
    rfl
  · refine .inr ⟨hroot, ?_⟩
    rw [block_eq_ofList hplaced]
    rfl

end Import

/-! ## Writing files -/

/-- Once the symbols of a file are collected, its emission is stopped only where its import
statements are, or else where something that it prints has no text. -/
theorem FileModel.fault_emission {f : FileModel} {typed code : List Symbol}
    (htyped : collect f.members = .ok typed) (hcode : collectCode f.members = .ok code)
    (base : List String) (imports : List Import) (docs : Docs) :
    (f.emission base imports docs).fault =
      (Import.block base f.path imports).fault.or (Fault.ofPrinted f.printed) := by
  obtain ⟨written, -, hwritten, -⟩ := collect_written htyped
  rw [collect, filterMap_written, List.map_map, Output.toExcept_eq_ok_iff] at hwritten
  rw [collectCode, Output.toExcept_eq_ok_iff] at hcode
  have hdeclarations : Output.concat (f.declarations.map fun d => d.written.symbols) =
      .ofList written := hwritten
  have hblocks : Output.concat (f.codeBlocks.map CodeBlock.symbols) = .ofList code := hcode
  have hmembers := f.writes_membersEmission docs
  rw [hdeclarations, hblocks] at hmembers
  have hmarks := f.marks_emission base imports docs
  -- Marks keep the fault, and the symbols of the members have none.
  calc (f.emission base imports docs).fault = (f.emission base imports docs).marks.fault := rfl
    _ = (Import.block base f.path imports).fault.or (f.membersEmission docs).fault := by
        rw [hmarks, Output.fault_append]
        rfl
    _ = (Import.block base f.path imports).fault.or (Fault.ofPrinted f.printed) := by
        rw [hmembers.fault_eq rfl]

/-- A file is assembled from the symbols that are collected and the tokens that are written with the
imports they need. -/
theorem assemble_eq_bind (config : AssemblyConfig) (loader : MetadataLoader) (f : FileModel) :
    assemble config loader f = (collect f.members).bind fun typed =>
      (collectCode f.members).bind fun code =>
        let r := Resolution.mergeUnrenamed config.naming f.path
          (Resolution.resolve config.naming f.path typed) code
        (f.tokens config r.imports (loader.load f).1.comments).map fun tokens =>
          { path := f.path
            content := Token.render r.renames tokens
            imports := r.imports
            renames := r.renames.entries } := by
  unfold assemble assembleWithNotices FileModel.resolution
  cases collect f.members with
  | error fault => rfl
  | ok typed =>
    cases collectCode f.members with
    | error fault => rfl
    | ok code =>
      dsimp only [bind, Except.bind, pure, Except.pure]
      have himports : (Resolution.merge config.naming f.path
          (Resolution.scan config.naming f.path typed).resolution code).imports =
          (Resolution.mergeUnrenamed config.naming f.path
            (Resolution.resolve config.naming f.path typed) code).imports := rfl
      rw [himports]
      cases f.tokens config (Resolution.mergeUnrenamed config.naming f.path
        (Resolution.resolve config.naming f.path typed) code).imports
          (loader.load f).1.comments with
      | error fault => rfl
      | ok tokens => rfl

/-! ## The three reasons -/

/-- An output without a fault is its items. -/
theorem Output.toExcept_of_none {α : Type} {a : Output α} (h : a.fault = none) :
    a.toExcept = .ok a.items := by
  rw [toExcept, h]

namespace FileModel

variable {f : FileModel}

end FileModel

end ModuleAssembly
