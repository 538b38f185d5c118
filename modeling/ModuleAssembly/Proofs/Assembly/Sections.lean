import ModuleAssembly.Proofs.Assembly.Names
import ModuleAssembly.Proofs.Stream.Layout

/-!
# The sections of an assembled file

The text of an assembled file is that of its sections, joined by line breaks
(`AssembledFile.sectionTexts`): the header comment, the imports, each declaration and then each code
block, as a new writer writes it. Each of them is a section in the sense of `Emission.IsSection`,
whatever bodies, documentation and code it has, so it leaves no trace in the state of the writer
that the next one finds.
-/

namespace ModuleAssembly

open Emission (IsSection text withFreshLine keepsLevel_text keepsLevel_stop keepsLineStart_text
  keepsLineStart_stop)

/-! ## Header comments -/

namespace Text

/-- Lines that are ended by line breaks are whole lines. -/
theorem isWholeLines_join {α : Type} (line : α → String) (xs : List α) :
    IsWholeLines (String.join (xs.map fun x => line x ++ "\n")) := by
  induction xs with
  | nil => exact .inl rfl
  | cons x xs ih =>
    rw [List.map_cons, String.join_cons]
    rcases ih with hnone | ⟨t, ht⟩
    · rw [hnone, String.append_empty]
      exact .inr ⟨line x, rfl⟩
    · exact .inr ⟨line x ++ "\n" ++ t, by rw [ht]; simp only [String.append_assoc]⟩

/-- A header comment consists of whole lines. -/
theorem isWholeLines_headerComment (comment : String) : IsWholeLines (headerComment comment) :=
  isWholeLines_join _ _

end Text

/-! ## Imports -/

namespace Import

/-- A statement ends its line. -/
theorem keepsLineStart_statement (specifier : String) (imports : List Import) :
    (statement specifier imports).KeepsLineStart := by
  have hend : ";\n" = ";" ++ "\n" := rfl
  rw [statement, hend, ← String.append_assoc]
  exact Emission.keepsLineStart_append_text _ _

/-- The statements of placed imports are a section. -/
theorem isSection_statements (imports : List (String × Import)) :
    (statements imports).IsSection := by
  rw [statements_eq]
  refine ⟨Emission.keepsLevel_concat fun e he => ?_, Emission.keepsLineStart_concat fun e he => ?_⟩
  · obtain ⟨specifier, -, rfl⟩ := List.mem_map.1 he
    exact keepsLevel_statement specifier _
  · obtain ⟨specifier, -, rfl⟩ := List.mem_map.1 he
    exact keepsLineStart_statement specifier _

/-- The import statements of a file are a section. -/
theorem isSection_block (base : List String) (file : String) (imports : List Import) :
    (block base file imports).IsSection := by
  unfold block
  split
  · exact isSection_statements _
  · exact ⟨keepsLevel_stop _, keepsLineStart_stop _⟩

end Import

/-! ## Files -/

/-- A member of a file is a section once its last line is ended. -/
theorem Member.isSection (docs : Docs) (m : Member) : (withFreshLine (m.emission docs)).IsSection :=
  ⟨(m.keepsLevel_emission docs).withFreshLine, Emission.keepsLineStart_withFreshLine _⟩

/-- Every member of a file is written. -/
theorem FileModel.mem_emissionOrder_of_mem {f : FileModel} {m : Member} (h : m ∈ f.members) :
    m ∈ f.emissionOrder := by
  cases m with
  | declaration d =>
    have hd : d ∈ f.declarations := List.mem_filterMap.2 ⟨.declaration d, h, rfl⟩
    exact List.mem_append_left _ (List.mem_map_of_mem hd)
  | code b =>
    have hb : b ∈ f.codeBlocks := List.mem_filterMap.2 ⟨.code b, h, rfl⟩
    exact List.mem_append_right _ (List.mem_map_of_mem hb)

/-- All sections of a file are sections. -/
theorem FileModel.isSection_of_mem {f : FileModel} {base : List String} {imports : List Import}
    {docs : Docs} {e : Emission} (h : e ∈ f.sections base imports docs) : e.IsSection := by
  unfold sections at h
  rcases List.mem_append.1 h with hfront | hmember
  · rcases List.mem_append.1 hfront with hheader | himports
    · obtain ⟨comment, -, rfl⟩ := Option.map_eq_some_iff.1 (Option.mem_toList.1 hheader)
      exact ⟨keepsLevel_text _, keepsLineStart_text (Text.isWholeLines_headerComment comment)⟩
    · have hblock : e = Import.block base f.path imports := by
        cases imports with
        | nil => cases himports
        | cons i imports => exact List.mem_singleton.1 himports
      rw [hblock]
      exact Import.isSection_block base f.path imports
  · obtain ⟨m, -, rfl⟩ := List.mem_map.1 hmember
    exact m.isSection docs

namespace AssembledFile

/-- The texts of the sections of a file that was assembled from a model: the header comment unless
it is missing or empty, the imports unless there are none, and what a new writer makes of each
declaration and of each code block. -/
def sectionTexts (config : AssemblyConfig) (docs : Docs) (f : FileModel) (file : AssembledFile) :
    List String :=
  ((f.comment.filter (· != "")).map Text.headerComment).toList ++
    (if file.imports.isEmpty then []
      else [(Import.block config.base f.path file.imports).alone ⟨file.renames⟩ config.indent]) ++
    (f.declarations.map fun d =>
      (withFreshLine (d.emission docs)).alone ⟨file.renames⟩ config.indent) ++
    f.codeBlocks.map fun b => (withFreshLine b.emission).alone ⟨file.renames⟩ config.indent

/-- They are the texts that the sections have alone. -/
theorem sectionTexts_eq (config : AssemblyConfig) (docs : Docs) (f : FileModel)
    (file : AssembledFile) :
    file.sectionTexts config docs f = (f.sections config.base file.imports docs).map
      (Emission.alone ⟨file.renames⟩ config.indent) := by
  have hheader : (((f.comment.filter (· != "")).map fun comment =>
      text (Text.headerComment comment)).toList).map
        (Emission.alone ⟨file.renames⟩ config.indent) =
      ((f.comment.filter (· != "")).map Text.headerComment).toList := by
    cases f.comment.filter (· != "") with
    | none => rfl
    | some comment => simp [Emission.alone_text]
  have himports : ((if file.imports.isEmpty then []
      else [Import.block config.base f.path file.imports]).map
        (Emission.alone ⟨file.renames⟩ config.indent)) =
      if file.imports.isEmpty then []
      else [(Import.block config.base f.path file.imports).alone ⟨file.renames⟩ config.indent] := by
    split
    · rfl
    · rfl
  rw [sectionTexts, FileModel.sections, List.map_append, List.map_append, hheader, himports]
  simp [FileModel.emissionOrder, Function.comp_def, Member.emission]

end AssembledFile

/-- An assembled file is its sections with an empty line between them: the header comment, the
imports, and what a new writer makes of each declaration and then of each code block. All of them
are whole lines. A member adds the same text wherever a line of the outermost level starts, and
another member may follow it. -/
theorem assemble_content_eq_intercalate {config : AssemblyConfig} {loader : MetadataLoader}
    {f : FileModel} {file : AssembledFile} (h : assemble config loader f = .ok file) :
    let docs := (loader.load f).1.comments
    file.content = String.intercalate "\n" (file.sectionTexts config docs f) ∧
      (∀ s ∈ file.sectionTexts config docs f, Text.IsWholeLines s) ∧
      ∀ m ∈ f.members, ∀ w : Writer, w.unit = config.indent → w.level = 0 →
        w.atLineStart = true →
        let v := w.write (withFreshLine (m.emission docs)).items
        v.level = 0 ∧ v.atLineStart = true ∧ v.rendered ⟨file.renames⟩ =
          w.rendered ⟨file.renames⟩ ++
            (withFreshLine (m.emission docs)).alone ⟨file.renames⟩ config.indent := by
  intro docs
  obtain ⟨typed, code, tokens, hfile⟩ := exists_assembledFrom h
  obtain ⟨hfault, htokens⟩ := FileModel.tokens_eq_ok hfile.tokens_eq
  have hsections : ∀ e ∈ f.sections config.base file.imports docs, e.IsSection :=
    fun e he => FileModel.isSection_of_mem he
  have hfaults : ∀ e ∈ f.sections config.base file.imports docs, e.fault = none :=
    Emission.fault_of_mem_separated hfault
  refine ⟨?_, ?_, ?_⟩
  · rw [hfile.content_eq, htokens, AssembledFile.sectionTexts_eq]
    calc Token.render ⟨file.renames⟩ (({ unit := config.indent } : Writer).write
            (f.emission config.base file.imports docs).items).tokens
        = "" ++ String.intercalate "\n" ((f.sections config.base file.imports docs).map
            (Emission.alone ⟨file.renames⟩ config.indent)) :=
          Emission.rendered_write_separated hsections hfault
            (w := { unit := config.indent }) rfl rfl
      _ = _ := String.empty_append
  · intro s hs
    rw [AssembledFile.sectionTexts_eq] at hs
    obtain ⟨e, he, rfl⟩ := List.mem_map.1 hs
    exact (hsections e he).isWholeLines_alone (hfaults e he) config.indent
  · intro m hm w hunit hlevel hline
    have hmember : withFreshLine (m.emission docs) ∈
        f.sections config.base file.imports docs :=
      List.mem_append_right _ (List.mem_map_of_mem (FileModel.mem_emissionOrder_of_mem hm))
    have hsection := m.isSection docs
    have hnone := hfaults _ hmember
    refine ⟨?_, hsection.keepsLineStart hnone w hline, ?_⟩
    · rw [hsection.keepsLevel hnone, hlevel]
    · rw [Emission.rendered_write_items hlevel hline, hunit]

/-- A file with a header comment, an import, a class whose method has a body, and a code block that
stands in front of the class and has no line break at its end. -/
theorem assemble_sections_of_class :
    let item : Symbol := ⟨"Item", "./a"⟩
    let f : FileModel :=
      { path := "store.ts"
        comment := some "Generated"
        members := [
          .code ⟨"start(%T);", [.type (.symbol item)]⟩,
          .declaration (.classType
            { name := "Store"
              methods := [{ name := "all", body := some ⟨"return [];", []⟩ }] })] }
    let texts :=
      ["// Generated\n", "import \x7b Item \x7d from './a';\n",
        "export class Store \x7b\n  all() \x7b\n    return [];\n  \x7d\n\x7d\n",
        "start(Item);\n"]
    let file : AssembledFile :=
      { path := "store.ts"
        content := String.intercalate "\n" texts
        imports := [⟨item, none⟩]
        renames := [] }
    assemble {} .nothing f = .ok file ∧ file.sectionTexts {} [] f = texts ∧
      file.content = String.intercalate "\n" (file.sectionTexts {} [] f) ∧
      ∀ s ∈ texts, Text.IsWholeLines s := by
  intro item f texts file
  have hplaced : [(⟨item, none⟩ : Import)].mapM (Import.placed [] "store.ts") =
      .ok [("./a", ⟨item, none⟩)] := by decide +kernel
  -- The only specifier need not be sorted.
  have hspecifiers : Import.specifiers [("./a", ⟨item, none⟩)] = ["./a"] :=
    List.mergeSort_singleton _
  have hblock : Import.block [] "store.ts" [⟨item, none⟩] =
      .ofList (Import.statementPieces "./a" [item]) := by
    rw [Import.block_eq_ofList hplaced, hspecifiers]
    decide +kernel
  have hsections : f.sections [] [⟨item, none⟩] [] =
      [text (Text.headerComment "Generated"), Import.block [] "store.ts" [⟨item, none⟩]] ++
        f.emissionOrder.map fun m => withFreshLine (m.emission []) := rfl
  have htokens : f.tokens {} [⟨item, none⟩] [] = .ok
      [.text "// Generated\n\nimport \x7b ", .binding item,
        .text (" \x7d from './a';\n\nexport class Store \x7b\n  all() \x7b\n" ++
          "    return [];\n  \x7d\n\x7d\n\nstart("), .usage item, .text ");\n"] := by
    rw [FileModel.tokens, FileModel.emission, hsections, hblock]
    decide +kernel
  have hfile : AssembledFrom {} .nothing f [] [item] _ file :=
    ⟨rfl, by decide +kernel, by decide +kernel, by decide +kernel, htokens, by decide +kernel⟩
  have htexts : file.sectionTexts {} [] f = texts := by
    rw [AssembledFile.sectionTexts, hblock]
    decide +kernel
  obtain ⟨hcontent, hlines, -⟩ := assemble_content_eq_intercalate hfile.assemble_eq
  refine ⟨hfile.assemble_eq, htexts, hcontent, ?_⟩
  rw [← htexts]
  exact hlines

end ModuleAssembly
