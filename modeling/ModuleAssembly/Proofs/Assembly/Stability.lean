import Mathlib.Logic.Relation
import ModuleAssembly.Proofs.Assembly.Failure
import ModuleAssembly.Proofs.Assembly.Sections
import ModuleAssembly.Proofs.Resolution.Extension

/-!
# What stays when a file changes

The declarations of a file alone decide its renames, and they are named from the first to the last.
So code blocks that come, go or move change no rename and no text of a declaration
(`assemble_of_codeEdits`), and members that are added at the end leave the renames that are there
and the texts of the declarations before them (`naming_extends`).

The text of a declaration is its section in the file (`AssembledFile.declarationTexts`). It depends
on the renames only through the symbols that the declaration uses (`Emission.alone_congr`).
-/

namespace ModuleAssembly

open Emission (withFreshLine)

/-! ## What a text depends on -/

/-- Two tables that agree on every token of a stream make one text of it. -/
theorem Token.render_congr {table other : RenameTable} {tokens : List Token}
    (h : ∀ t ∈ tokens, resolve table t = resolve other t) :
    render table tokens = render other tokens := by
  unfold render
  rw [List.map_congr_left h]

/-- Two tables that agree on the marks of an emission make one text of it. -/
theorem Emission.alone_congr {table other : RenameTable} {e : Emission}
    (h : ∀ t ∈ e.marks.items, Token.resolve table t = Token.resolve other t) (unit : String) :
    e.alone table unit = e.alone other unit := by
  refine Token.render_congr fun t ht => ?_
  cases hmark : t.isMark with
  | true =>
    -- A mark in the stream was left by the emission.
    have hmem : t ∈ Token.marks (({ unit } : Writer).write e.items).tokens :=
      List.mem_filter.2 ⟨ht, hmark⟩
    rw [Writer.marks_write] at hmem
    exact h t hmem
  | false =>
    cases t with
    | text s => rfl
    | usage s => cases hmark
    | binding s => cases hmark

/-- The text of a declaration, as a section of a file with some renames. -/
def Declaration.sectionText (config : AssemblyConfig) (docs : Docs) (renames : List Rename)
    (d : Declaration) : String :=
  (withFreshLine (d.emission docs)).alone ⟨renames⟩ config.indent

/-- The text of a declaration depends on what its symbols are written as. -/
theorem Declaration.sectionText_congr {config : AssemblyConfig} {docs : Docs}
    {renames others : List Rename} {d : Declaration}
    (h : ∀ s, .usage s ∈ (d.emission docs).items →
      Token.aliasIn ⟨renames⟩ s = Token.aliasIn ⟨others⟩ s) :
    d.sectionText config docs renames = d.sectionText config docs others := by
  refine Emission.alone_congr (fun t ht => ?_) config.indent
  rw [Emission.marks_withFreshLine] at ht
  obtain ⟨s, -, rfl⟩ := List.mem_map.1 ((d.writes_emission docs).cutOf.subset ht)
  obtain ⟨p, hp, hmark⟩ := List.mem_filterMap.1 ht
  have hpiece : p = .usage s := by
    cases p with
    | usage r => rw [Token.usage.inj (Option.some.inj hmark)]
    | text _ | binding _ | indent | unindent | freshLine => cases hmark
  rw [Token.resolve, h s (hpiece ▸ hp)]
  rfl

namespace AssembledFile

/-- The texts of the declarations of a file that was assembled from a model, in order. -/
def declarationTexts (config : AssemblyConfig) (docs : Docs) (f : FileModel)
    (file : AssembledFile) : List String :=
  f.declarations.map (Declaration.sectionText config docs file.renames)

/-- Some texts stand in a file as sections, one after the other. -/
def Shows (file : AssembledFile) (texts : List String) : Prop :=
  ∃ front rest : List String, file.content = String.intercalate "\n" (front ++ texts ++ rest)

end AssembledFile

namespace AssembledFrom

variable {config : AssemblyConfig} {loader : MetadataLoader} {f : FileModel}
  {typed code : List Symbol} {tokens : List Token} {file : AssembledFile}

/-- The renames of an assembled file are those of its declarations. -/
theorem renames_eq (h : AssembledFrom config loader f typed code tokens file) :
    file.renames = (Resolution.resolve config.naming f.path typed).renames.entries :=
  congrArg (fun r => r.renames.entries) h.resolution_eq

/-- The imports of its declarations come first. -/
theorem imports_eq (h : AssembledFrom config loader f typed code tokens file) :
    file.imports = (Resolution.resolve config.naming f.path typed).imports ++
      (Resolution.newcomers config.naming f.path
        (Resolution.resolve config.naming f.path typed) code).map fun s => ⟨s, none⟩ := by
  rw [← Resolution.merge_imports]
  exact congrArg Resolution.imports h.resolution_eq

/-- Its text is that of its sections. -/
theorem content_eq_sectionTexts (h : AssembledFrom config loader f typed code tokens file) :
    file.content =
      String.intercalate "\n" (file.sectionTexts config (loader.load f).1.comments f) := by
  obtain ⟨hfault, htokens⟩ := FileModel.tokens_eq_ok h.tokens_eq
  rw [h.content_eq, htokens, AssembledFile.sectionTexts_eq]
  refine Eq.trans ?_ String.empty_append
  exact Emission.rendered_write_separated (fun e he => FileModel.isSection_of_mem he) hfault
    (w := { unit := config.indent }) rfl rfl

/-- The texts of its declarations are sections of it. -/
theorem shows_declarationTexts (h : AssembledFrom config loader f typed code tokens file) :
    file.Shows (file.declarationTexts config (loader.load f).1.comments f) :=
  ⟨_, _, h.content_eq_sectionTexts⟩

/-- Neither the imports of an assembled file nor what it prints has a fault. -/
theorem fault_eq_none (h : AssembledFrom config loader f typed code tokens file) :
    (Import.block config.base f.path file.imports).fault = none ∧
      Fault.ofPrinted f.printed = none := by
  obtain ⟨hfault, -⟩ := FileModel.tokens_eq_ok h.tokens_eq
  rwa [FileModel.fault_emission h.typed_eq h.code_eq, Option.or_eq_none_iff] at hfault

/-- No import of an assembled file is from the path of the generated files themselves. -/
theorem module_ne_localMark (h : AssembledFrom config loader f typed code tokens file) :
    ∀ i ∈ file.imports, i.symbol.module ≠ Path.localMark := by
  obtain ⟨hfault, -⟩ := h.fault_eq_none
  rcases Import.block_cases config.base f.path file.imports with ⟨-, hstop⟩ | ⟨hall, -⟩
  · rw [hstop] at hfault
    cases hfault
  · exact hall

end AssembledFrom

/-- A file whose symbols are collected is assembled if none of its imports is from the path of the
generated files themselves, and all that it prints has a text. -/
theorem FileModel.exists_assembledFrom_of_collected {f : FileModel} {config : AssemblyConfig}
    {typed code : List Symbol} (htyped : collect f.members = .ok typed)
    (hcode : collectCode f.members = .ok code)
    (hroot : ∀ i ∈ (Resolution.mergeUnrenamed config.naming f.path
      (Resolution.resolve config.naming f.path typed) code).imports,
        i.symbol.module ≠ Path.localMark)
    (hprinted : Fault.ofPrinted f.printed = none) (loader : MetadataLoader) :
    ∃ tokens file, AssembledFrom config loader f typed code tokens file := by
  generalize hr : Resolution.mergeUnrenamed config.naming f.path
    (Resolution.resolve config.naming f.path typed) code = r at hroot
  have hfault := fault_emission htyped hcode config.base r.imports (loader.load f).1.comments
  have hnone : (Import.block config.base f.path r.imports).fault = none := by
    rcases Import.block_cases config.base f.path r.imports with ⟨⟨i, hi, hmark⟩, -⟩ | ⟨-, hnone⟩
    · exact absurd hmark (hroot i hi)
    · exact hnone
  have htokens : f.tokens config r.imports (loader.load f).1.comments =
      .ok (({ unit := config.indent } : Writer).write
        (f.emission config.base r.imports (loader.load f).1.comments).items).tokens := by
    rw [hnone, hprinted] at hfault
    rw [FileModel.tokens, Output.toExcept_of_none hfault]
    rfl
  exact ⟨_, ⟨f.path, Token.render r.renames _, r.imports, r.renames.entries⟩,
    rfl, htyped, hcode, hr.symm, htokens, rfl⟩

/-! ## Code blocks that come, go or move -/

/-- One change of the code blocks among the members of a file: one comes, or one goes. A code block
that moves goes from one place and comes to another. -/
inductive Member.CodeEdit : List Member → List Member → Prop where
  /-- A code block comes. -/
  | insert (before after : List Member) (b : CodeBlock) :
    CodeEdit (before ++ after) (before ++ .code b :: after)
  /-- A code block goes. -/
  | delete (before after : List Member) (b : CodeBlock) :
    CodeEdit (before ++ .code b :: after) (before ++ after)

namespace Member

/-- Declarations are the declarations among themselves. -/
theorem filterMap_declaration?_map (ds : List Declaration) :
    (ds.map declaration).filterMap declaration? = ds := by
  have hsome : declaration? ∘ declaration = some := rfl
  rw [List.filterMap_map, hsome, List.filterMap_some]

/-- There is no code block among declarations. -/
theorem filterMap_code?_map (ds : List Declaration) :
    (ds.map declaration).filterMap code? = [] := by
  rw [List.filterMap_eq_nil_iff]
  intro m hm
  obtain ⟨d, -, rfl⟩ := List.mem_map.1 hm
  rfl

/-- A code block is no declaration. -/
theorem filterMap_declaration?_code (before after : List Member) (b : CodeBlock) :
    (before ++ .code b :: after).filterMap declaration? =
      (before ++ after).filterMap declaration? := by
  have hcode : declaration? (.code b) = none := rfl
  rw [List.filterMap_append, List.filterMap_cons_none hcode, List.filterMap_append]

/-- A change of the code blocks leaves the declarations. -/
theorem CodeEdit.declarations_eq {members others : List Member} (h : CodeEdit members others) :
    others.filterMap declaration? = members.filterMap declaration? := by
  cases h with
  | insert before after b => exact filterMap_declaration?_code before after b
  | delete before after b => exact (filterMap_declaration?_code before after b).symm

/-- Any number of changes of the code blocks leaves the declarations. -/
theorem declarations_eq_of_codeEdits {members others : List Member}
    (h : Relation.ReflTransGen CodeEdit members others) :
    others.filterMap declaration? = members.filterMap declaration? := by
  induction h with
  | refl => rfl
  | tail _ hstep ih => rw [hstep.declarations_eq, ih]

end Member

/-- The symbols of declarations depend on the declarations alone. -/
theorem collect_congr {members others : List Member}
    (h : others.filterMap Member.declaration? = members.filterMap Member.declaration?) :
    collect others = collect members := by
  rw [collect, h, collect]

namespace FileModel

/-- A file without its code blocks. -/
def withoutCode (f : FileModel) : FileModel :=
  { f with members := f.declarations.map .declaration }

/-- Without its code blocks a file has its declarations. -/
theorem declarations_withoutCode (f : FileModel) : f.withoutCode.declarations = f.declarations :=
  Member.filterMap_declaration?_map f.declarations

/-- Without its code blocks a file has no code block. -/
theorem codeBlocks_withoutCode (f : FileModel) : f.withoutCode.codeBlocks = [] :=
  Member.filterMap_code?_map f.declarations

/-- Without its code blocks a file has no symbols of code blocks. -/
theorem collectCode_withoutCode (f : FileModel) : collectCode f.withoutCode.members = .ok [] := by
  have hnone : f.withoutCode.members.filterMap Member.code? = [] := f.codeBlocks_withoutCode
  rw [collectCode, hnone]
  rfl

/-- Without its code blocks a file prints what its declarations print. -/
theorem printed_withoutCode (f : FileModel) :
    f.withoutCode.printed = f.declarations.flatMap Declaration.printed := by
  rw [printed, f.declarations_withoutCode, f.codeBlocks_withoutCode, List.flatMap_nil,
    List.append_nil]

/-- The sections of a file depend on its path, its comment, its declarations and its code blocks,
in whatever way these stand among each other. -/
theorem sections_congr {f : FileModel} {members : List Member}
    (hdeclarations : members.filterMap Member.declaration? = f.declarations)
    (hcode : members.filterMap Member.code? = f.codeBlocks) (base : List String)
    (imports : List Import) (docs : Docs) :
    ({ f with members } : FileModel).sections base imports docs = f.sections base imports docs := by
  have horder : ({ f with members } : FileModel).emissionOrder = f.emissionOrder := by
    rw [emissionOrder, emissionOrder, ← hdeclarations, ← hcode]
    rfl
  rw [sections, sections, horder]

end FileModel

namespace AssembledFrom

variable {config : AssemblyConfig} {loader loader' : MetadataLoader} {f : FileModel}
  {typed code typed' code' : List Symbol} {tokens tokens' : List Token}
  {file file' : AssembledFile}

/-- A file that is assembled is assembled without its code blocks, with the imports of its
declarations. -/
theorem exists_withoutCode (h : AssembledFrom config loader f typed code tokens file)
    (loader' : MetadataLoader) :
    ∃ bare, assemble config loader' f.withoutCode = .ok bare ∧
      bare.imports = (Resolution.resolve config.naming f.path typed).imports := by
  have htyped : collect f.withoutCode.members = .ok typed := by
    rw [collect_congr f.declarations_withoutCode]
    exact h.typed_eq
  have hroot : ∀ i ∈ (Resolution.mergeUnrenamed config.naming f.withoutCode.path
      (Resolution.resolve config.naming f.withoutCode.path typed) []).imports,
        i.symbol.module ≠ Path.localMark := by
    intro i hi
    refine h.module_ne_localMark i ?_
    rw [h.imports_eq]
    exact List.mem_append_left _ hi
  have hprinted : Fault.ofPrinted f.withoutCode.printed = none := by
    have hall := h.fault_eq_none.2
    rw [FileModel.printed, Fault.ofPrinted_append, Option.or_eq_none_iff] at hall
    rw [f.printed_withoutCode]
    exact hall.1
  obtain ⟨tokens, bare, hbare⟩ := FileModel.exists_assembledFrom_of_collected htyped
    f.collectCode_withoutCode hroot hprinted loader'
  exact ⟨bare, hbare.assemble_eq, congrArg Resolution.imports hbare.resolution_eq⟩

/-- Files with the same declarations, assembled with the same documentation, have the same texts of
declarations if they have the same renames. -/
theorem declarationTexts_congr {g : FileModel} {docs : Docs}
    (hdeclarations : g.declarations = f.declarations) (hrenames : file'.renames = file.renames) :
    file'.declarationTexts config docs g = file.declarationTexts config docs f := by
  rw [AssembledFile.declarationTexts, AssembledFile.declarationTexts, hdeclarations, hrenames]

/-- A file in which only the places of code blocks changed has the same text, if it has the same
documentation, renames and imports. -/
theorem content_eq_of_moves {members : List Member}
    (h : AssembledFrom config loader f typed code tokens file)
    (h' : AssembledFrom config loader' { f with members } typed' code' tokens' file')
    (hdeclarations : members.filterMap Member.declaration? = f.declarations)
    (hcode : members.filterMap Member.code? = f.codeBlocks)
    (hdocs : (loader'.load { f with members }).1 = (loader.load f).1)
    (hrenames : file'.renames = file.renames) (himports : file'.imports = file.imports) :
    file'.content = file.content := by
  rw [h.content_eq_sectionTexts, h'.content_eq_sectionTexts, AssembledFile.sectionTexts_eq,
    AssembledFile.sectionTexts_eq, FileModel.sections_congr hdeclarations hcode, hdocs, hrenames,
    himports]

end AssembledFrom

/-- When code blocks of a file come, go or move, its renames stay. The imports are those of the
file without its code blocks, which can be assembled too, and further ones after them. Every
declaration has the text it had. If code blocks only move among the declarations, all of the text
stays. -/
theorem assemble_of_codeEdits {config : AssemblyConfig} {loader loader' : MetadataLoader}
    {f : FileModel} {members : List Member} {file file' : AssembledFile}
    (hedits : Relation.ReflTransGen Member.CodeEdit f.members members)
    (h : assemble config loader f = .ok file)
    (h' : assemble config loader' { f with members } = .ok file')
    (hdocs : (loader'.load { f with members }).1 = (loader.load f).1) :
    let docs := (loader.load f).1.comments
    file'.renames = file.renames ∧
      (∃ bare, assemble config loader f.withoutCode = .ok bare ∧
        bare.imports <+: file.imports ∧ bare.imports <+: file'.imports) ∧
      file'.declarationTexts config docs { f with members } =
        file.declarationTexts config docs f ∧
      file.Shows (file.declarationTexts config docs f) ∧
      file'.Shows (file.declarationTexts config docs f) ∧
      (members.filterMap Member.code? = f.members.filterMap Member.code? →
        file'.content = file.content) := by
  intro docs
  obtain ⟨typed, code, tokens, hfile⟩ := exists_assembledFrom h
  obtain ⟨typed', code', tokens', hfile'⟩ := exists_assembledFrom h'
  have hdeclarations : members.filterMap Member.declaration? = f.declarations :=
    Member.declarations_eq_of_codeEdits hedits
  have htyped : typed' = typed := by
    have hcollect := hfile'.typed_eq.symm.trans ((collect_congr hdeclarations).trans hfile.typed_eq)
    exact Except.ok.inj hcollect
  subst htyped
  have hrenames : file'.renames = file.renames := hfile'.renames_eq.trans hfile.renames_eq.symm
  have htexts : file'.declarationTexts config docs { f with members } =
      file.declarationTexts config docs f :=
    AssembledFrom.declarationTexts_congr hdeclarations hrenames
  have hshows' := hfile'.shows_declarationTexts
  rw [hdocs, htexts] at hshows'
  obtain ⟨bare, hbare, himports⟩ := hfile.exists_withoutCode loader
  refine ⟨hrenames, ⟨bare, hbare, ?_, ?_⟩, htexts, hfile.shows_declarationTexts, hshows', ?_⟩
  · rw [himports, hfile.imports_eq]
    exact List.prefix_append _ _
  · rw [himports, hfile'.imports_eq]
    exact List.prefix_append _ _
  · intro hcode
    have hcodes : code' = code := by
      have hcollect : collectCode members = collectCode f.members := by
        rw [collectCode, hcode, collectCode]
      exact Except.ok.inj (hfile'.code_eq.symm.trans (hcollect.trans hfile.code_eq))
    have himports' : file'.imports = file.imports := by
      rw [hfile.imports_eq, hfile'.imports_eq, hcodes]
    exact hfile.content_eq_of_moves hfile' hdeclarations hcode hdocs hrenames himports'

/-- An interface uses two symbols of one name, and a code block in front of it the renamed one. The
code block moves behind the interface, which changes nothing, or another one comes with a third
symbol of that name, which is imported under it but leaves the interface as it is. -/
theorem assemble_of_codeEdits_of_collision :
    let first : Symbol := ⟨"Item", "./a"⟩
    let second : Symbol := ⟨"Item", "./b"⟩
    let third : Symbol := ⟨"Item", "./c"⟩
    let store : Member := .declaration (.interface
      { name := "Store"
        properties := [
          { name := "all", type := some (.array (.symbol first)) },
          { name := "last", type := some (.symbol second) }] })
    let flush : Member := .code ⟨"%T.flush();", [.type (.symbol second)]⟩
    let start : Member := .code ⟨"%T.start();", [.type (.symbol third)]⟩
    let f : FileModel := { path := "store.ts", members := [flush, store] }
    ∃ file moved grown, assemble {} .nothing f = .ok file ∧
      assemble {} .nothing { f with members := [store, flush] } = .ok moved ∧
      assemble {} .nothing { f with members := [flush, start, store] } = .ok grown ∧
      moved.content = file.content ∧
      file.renames = [⟨second, "Item_autoresolved_1", first⟩] ∧ grown.renames = file.renames ∧
      grown.imports = [⟨first, none⟩, ⟨second, some "Item_autoresolved_1"⟩, ⟨third, none⟩] ∧
      grown.Shows
        ["export interface Store \x7b\n  all: Item[];\n  last: Item_autoresolved_1;\n\x7d\n"] := by
  intro first second third store flush start f
  obtain ⟨_, file, hfile⟩ :
      ∃ tokens file, AssembledFrom {} .nothing f [first, second] [second] tokens file :=
    FileModel.exists_assembledFrom_of_collected (by decide +kernel) (by decide +kernel)
      (by decide +kernel) (by decide +kernel) .nothing
  obtain ⟨_, moved, hmoved⟩ : ∃ tokens file, AssembledFrom {} .nothing
      { f with members := [store, flush] } [first, second] [second] tokens file :=
    FileModel.exists_assembledFrom_of_collected (by decide +kernel) (by decide +kernel)
      (by decide +kernel) (by decide +kernel) .nothing
  obtain ⟨_, grown, hgrown⟩ : ∃ tokens file, AssembledFrom {} .nothing
      { f with members := [flush, start, store] } [first, second] [second, third] tokens file :=
    FileModel.exists_assembledFrom_of_collected (by decide +kernel) (by decide +kernel)
      (by decide +kernel) (by decide +kernel) .nothing
  have hmove : Relation.ReflTransGen Member.CodeEdit f.members [store, flush] :=
    .tail (.single (.delete [] [store] _)) (.insert [store] [] _)
  have hgrow : Relation.ReflTransGen Member.CodeEdit f.members [flush, start, store] :=
    .single (.insert [flush] [store] _)
  obtain ⟨-, -, -, -, -, hcontent⟩ :=
    assemble_of_codeEdits hmove hfile.assemble_eq hmoved.assemble_eq rfl
  obtain ⟨hrenames, -, -, -, hshows, -⟩ :=
    assemble_of_codeEdits hgrow hfile.assemble_eq hgrown.assemble_eq rfl
  have hold : file.renames = [⟨second, "Item_autoresolved_1", first⟩] := by
    rw [hfile.renames_eq]
    decide +kernel
  have himports : grown.imports =
      [⟨first, none⟩, ⟨second, some "Item_autoresolved_1"⟩, ⟨third, none⟩] := by
    rw [hgrown.imports_eq]
    decide +kernel
  have htexts : file.declarationTexts {} (MetadataLoader.nothing.load f).1.comments f =
      ["export interface Store \x7b\n  all: Item[];\n  last: Item_autoresolved_1;\n\x7d\n"] := by
    rw [AssembledFile.declarationTexts, hold]
    decide +kernel
  rw [htexts] at hshows
  exact ⟨file, moved, grown, hfile.assemble_eq, hmoved.assemble_eq, hgrown.assemble_eq,
    hcontent rfl, hold, hrenames, himports, hshows⟩

/-! ## Members that are added -/

/-- The symbols of the declarations of a file come first among those of a file with more members. -/
theorem prefix_collect {members others : List Member} {typed typed' : List Symbol}
    (h : collect members = .ok typed) (h' : collect (members ++ others) = .ok typed') :
    typed <+: typed' := by
  rw [collect, Output.toExcept_eq_ok_iff] at h h'
  rw [List.filterMap_append, List.map_append, Output.concat_append, h] at h'
  exact ⟨_, congrArg Output.items h'⟩

/-- A symbol that is not imported goes by no other name. -/
theorem Resolution.Aligned.aliasIn_eq_none {r : Resolution} (h : r.Aligned) {s : Symbol}
    (hs : s ∉ r.imported) : Token.aliasIn r.renames s = none := by
  have hcontains : r.renames.contains s = false := by
    rw [← Bool.not_eq_true, h.contains_iff]
    rintro ⟨i, hi, rfl, -⟩
    exact hs (List.mem_map_of_mem hi)
  have hfind : r.renames.entries.find? (·.symbol == s) = none := by
    rw [List.find?_eq_none]
    rw [RenameTable.contains, List.any_eq_false] at hcontains
    exact hcontains
  rw [Token.aliasIn, RenameTable.aliasOf?, hfind]
  rfl

/-- A symbol goes by the name it has, whatever symbols come after. -/
theorem Resolution.aliasIn_resolve_append {rules : NamingRules} {path : String}
    {symbols : List Symbol} {s : Symbol} (hs : s ∈ symbols) (others : List Symbol) :
    Token.aliasIn (resolve rules path (symbols ++ others)).renames s =
      Token.aliasIn (resolve rules path symbols).renames s := by
  have hvalid := scan_valid rules path symbols
  have hvalid' := scan_valid rules path (symbols ++ others)
  cases hforeign : rules.isForeign path s with
  | true =>
    -- The import of the symbol is the same in both.
    have hmem : s ∈ (resolve rules path symbols).imports.map (·.symbol) := by
      rw [resolve, hvalid.imported, NamingRules.mem_foreign]
      exact ⟨hs, hforeign⟩
    obtain ⟨i, hi, rfl⟩ := List.mem_map.1 hmem
    have hi' : i ∈ (resolve rules path (symbols ++ others)).imports :=
      (prefix_imports_resolve symbols others).subset hi
    exact (hvalid'.coherent.toAligned.aliasIn_eq hi').trans
      (hvalid.coherent.toAligned.aliasIn_eq hi).symm
  | false =>
    have hnot : ∀ xs, s ∉ (resolve rules path xs).imported := by
      intro xs hmem
      rw [imported, resolve, (scan_valid rules path xs).imported, NamingRules.mem_foreign,
        hforeign] at hmem
      exact Bool.false_ne_true hmem.2
    exact (hvalid'.coherent.toAligned.aliasIn_eq_none (hnot _)).trans
      (hvalid.coherent.toAligned.aliasIn_eq_none (hnot _)).symm

namespace AssembledFrom

variable {config : AssemblyConfig} {loader loader' : MetadataLoader} {f : FileModel}
  {typed code typed' code' : List Symbol} {tokens tokens' : List Token}
  {file file' : AssembledFile} {others : List Member}

/-- The symbols of a file come first among those of a file with more members. -/
theorem prefix_typed (h : AssembledFrom config loader f typed code tokens file)
    (h' : AssembledFrom config loader' { f with members := f.members ++ others }
      typed' code' tokens' file') : typed <+: typed' :=
  prefix_collect h.typed_eq h'.typed_eq

/-- The texts of the declarations of a file come first among those of a file with more members and
the same documentation. -/
theorem prefix_declarationTexts (h : AssembledFrom config loader f typed code tokens file)
    (h' : AssembledFrom config loader' { f with members := f.members ++ others }
      typed' code' tokens' file') :
    file.declarationTexts config (loader.load f).1.comments f <+:
      file'.declarationTexts config (loader.load f).1.comments
        { f with members := f.members ++ others } := by
  obtain ⟨new, rfl⟩ := h.prefix_typed h'
  have hsame : f.declarations.map
      (Declaration.sectionText config (loader.load f).1.comments file'.renames) =
        file.declarationTexts config (loader.load f).1.comments f := by
    refine List.map_congr_left fun d hd => Declaration.sectionText_congr fun s hs => ?_
    rw [h.renames_eq, h'.renames_eq]
    exact Resolution.aliasIn_resolve_append (h.mem_typed_of_usage hd hs) new
  have hdeclarations : ({ f with members := f.members ++ others } : FileModel).declarations =
      f.declarations ++ others.filterMap Member.declaration? := List.filterMap_append
  rw [← hsame, AssembledFile.declarationTexts, hdeclarations, List.map_append]
  exact List.prefix_append _ _

end AssembledFrom

/-- The imports and the renames of some symbols come first among those of more symbols, and a symbol
that has occurred or is of the file's own module changes neither, wherever it stands. So when
members are added at the end of a file, its renames come first among the new ones and its
declarations have the texts they had. -/
theorem naming_extends :
    (∀ (rules : NamingRules) (path : String) (symbols others : List Symbol),
      let r := Resolution.resolve rules path symbols
      let r' := Resolution.resolve rules path (symbols ++ others)
      r.imports <+: r'.imports ∧ r.renames.entries <+: r'.renames.entries) ∧
    (∀ (rules : NamingRules) (path : String) (symbols others : List Symbol) (s : Symbol),
      s ∈ symbols ∨ Path.isSelf s.module path rules.extensions = true →
        Resolution.resolve rules path (symbols ++ s :: others) =
          Resolution.resolve rules path (symbols ++ others)) ∧
    ∀ (config : AssemblyConfig) (loader loader' : MetadataLoader) (f : FileModel)
      (others : List Member) (file file' : AssembledFile),
      let f' : FileModel := { f with members := f.members ++ others }
      let docs := (loader.load f).1.comments
      assemble config loader f = .ok file → assemble config loader' f' = .ok file' →
      (loader'.load f').1 = (loader.load f).1 →
        file.renames <+: file'.renames ∧
          file.declarationTexts config docs f <+: file'.declarationTexts config docs f' ∧
          file.Shows (file.declarationTexts config docs f) ∧
          file'.Shows (file'.declarationTexts config docs f') := by
  refine ⟨?_, ?_, ?_⟩
  · exact fun rules path symbols others => ⟨Resolution.prefix_imports_resolve symbols others,
      Resolution.prefix_renames_resolve symbols others⟩
  · intro rules path symbols others s hs
    refine Resolution.resolve_insert (hs.imp_right fun hself => ?_) others
    rw [NamingRules.isForeign, hself]
    rfl
  · intro config loader loader' f others file file' f' docs h h' hdocs
    obtain ⟨typed, code, tokens, hfile⟩ := exists_assembledFrom h
    obtain ⟨typed', code', tokens', hfile'⟩ := exists_assembledFrom h'
    have hshows' := hfile'.shows_declarationTexts
    rw [hdocs] at hshows'
    refine ⟨?_, hfile.prefix_declarationTexts hfile', hfile.shows_declarationTexts, hshows'⟩
    obtain ⟨new, rfl⟩ := hfile.prefix_typed hfile'
    rw [hfile.renames_eq, hfile'.renames_eq]
    exact Resolution.prefix_renames_resolve typed new

/-- A file has an interface with two symbols of one name. An alias for a third one, which is renamed
too, and a code block are added; and a symbol of the file's own module in front of all others does
not count. -/
theorem naming_extends_of_alias :
    let first : Symbol := ⟨"Item", "./a"⟩
    let second : Symbol := ⟨"Item", "./b"⟩
    let third : Symbol := ⟨"Item", "./c"⟩
    let own : Symbol := ⟨"Item", "./store"⟩
    let store : Member := .declaration (.interface
      { name := "Store"
        properties := [
          { name := "all", type := some (.array (.symbol first)) },
          { name := "last", type := some (.symbol second) }] })
    let other : Member := .declaration (.typeAlias { name := "Other", type := .symbol third })
    let flush : Member := .code ⟨"%T.flush();", [.type (.symbol second)]⟩
    let f : FileModel := { path := "store.ts", members := [store] }
    let f' : FileModel := { f with members := [store] ++ [flush, other] }
    ∃ file file', assemble {} .nothing f = .ok file ∧ assemble {} .nothing f' = .ok file' ∧
      file.renames = [⟨second, "Item_autoresolved_1", first⟩] ∧
      file'.renames = [⟨second, "Item_autoresolved_1", first⟩,
        ⟨third, "Item_autoresolved_2", first⟩] ∧
      file.renames <+: file'.renames ∧
      file.declarationTexts {} [] f <+: file'.declarationTexts {} [] f' ∧
      Resolution.resolve {} "store.ts" [own, first, second] =
        Resolution.resolve {} "store.ts" [first, second] := by
  intro first second third own store other flush f f'
  obtain ⟨_, file, hfile⟩ :
      ∃ tokens file, AssembledFrom {} .nothing f [first, second] [] tokens file :=
    FileModel.exists_assembledFrom_of_collected (by decide +kernel) (by decide +kernel)
      (by decide +kernel) (by decide +kernel) .nothing
  obtain ⟨_, file', hfile'⟩ :
      ∃ tokens file, AssembledFrom {} .nothing f' [first, second, third] [second] tokens file :=
    FileModel.exists_assembledFrom_of_collected (by decide +kernel) (by decide +kernel)
      (by decide +kernel) (by decide +kernel) .nothing
  obtain ⟨-, hinsert, hfiles⟩ := naming_extends
  obtain ⟨hrenames, htexts, -, -⟩ := hfiles {} .nothing .nothing f [flush, other] file file'
    hfile.assemble_eq hfile'.assemble_eq rfl
  refine ⟨file, file', hfile.assemble_eq, hfile'.assemble_eq, ?_, ?_, hrenames, htexts, ?_⟩
  · rw [hfile.renames_eq]
    decide +kernel
  · rw [hfile'.renames_eq]
    decide +kernel
  · exact hinsert {} "store.ts" [] [first, second] own (.inr (by decide +kernel))

end ModuleAssembly
