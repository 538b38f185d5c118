import ModuleAssembly.Proofs.Assembly.Names

/-!
# Imports that are needed

A file should import what it uses and nothing else (`AssembledFile.NeedsImports`). It does if no
method of an interface has a body. Such a body is not written, but its symbols are collected
(`collectHidden`), so they are imported even where nothing else uses them, and one of them may take
the name of a symbol that is used. No other symbol is imported without need
(`AssembledFrom.exists_hidden`).
-/

namespace ModuleAssembly

/-- Outputs that are all empty are empty together. -/
theorem Output.concat_eq_empty {α : Type} {as : List (Output α)} (h : ∀ a ∈ as, a = empty) :
    concat as = empty := by
  induction as with
  | nil => rfl
  | cons a as ih =>
    rw [concat_cons, h a List.mem_cons_self, ih fun b hb => h b (List.mem_cons_of_mem a hb)]
    rfl

/-- A file with a stream needs its imports: each is of a symbol that the stream uses, and so is each
name that a symbol keeps and another loses. -/
structure AssembledFile.NeedsImports (file : AssembledFile) (tokens : List Token) : Prop where
  /-- Every imported symbol is used. -/
  imported_used : ∀ i ∈ file.imports, .usage i.symbol ∈ tokens
  /-- Every symbol for which another one is renamed is used. -/
  keeper_used : ∀ e ∈ file.renames, .usage e.keeper ∈ tokens

/-- Without bodies of methods of interfaces nothing is hidden. -/
theorem collectHidden_of_bodiless {members : List Member}
    (h : ∀ i, .declaration (.interface i) ∈ members → ∀ m ∈ i.methods, m.body = none) :
    collectHidden members = .ok [] := by
  have hdeclaration : ∀ d, .declaration d ∈ members → d.hiddenSymbols = .empty := by
    intro d hd
    cases d with
    | interface d =>
      refine Output.concat_eq_empty fun a ha => ?_
      obtain ⟨m, hm, rfl⟩ := List.mem_map.1 ha
      rw [h d hd m hm]
      rfl
    | classType d | enumeration d | function d | constant d | typeAlias d => rfl
  rw [collectHidden, Output.toExcept_eq_ok_iff]
  refine Output.concat_eq_empty fun a ha => ?_
  obtain ⟨d, hd, rfl⟩ := List.mem_map.1 ha
  obtain ⟨m, hm, hdeclares⟩ := List.mem_filterMap.1 hd
  cases m with
  | declaration d' =>
    cases hdeclares
    exact hdeclaration d hm
  | code b => cases hdeclares

namespace AssembledFrom

variable {config : AssemblyConfig} {loader : MetadataLoader} {f : FileModel}
  {typed code : List Symbol} {tokens : List Token} {file : AssembledFile}

/-- A symbol that is imported was collected, and is foreign. -/
theorem collected_of_import (h : AssembledFrom config loader f typed code tokens file)
    {i : Import} (hi : i ∈ file.imports) :
    i.symbol ∈ typed ++ code ∧ config.naming.isForeign f.path i.symbol = true := by
  have himported : i.symbol ∈ (Resolution.mergeUnrenamed config.naming f.path
      (Resolution.resolve config.naming f.path typed) code).imported := by
    rw [← h.resolution_eq]
    exact List.mem_map_of_mem hi
  exact Resolution.mem_imported_mergeUnrenamed_resolve.1 himported

/-- What was collected is used by the stream, but for symbols of bodies of the methods of
interfaces. -/
theorem exists_hidden (h : AssembledFrom config loader f typed code tokens file) :
    ∃ hidden, collectHidden f.members = .ok hidden ∧ (∀ s ∈ hidden, s ∈ typed) ∧
      ∀ s ∈ typed ++ code, .usage s ∈ tokens ∨ s ∈ hidden := by
  obtain ⟨written, hidden, hwritten, hhidden, -, hperm⟩ := collect_written h.typed_eq
  obtain ⟨placed, -, hmarks⟩ := FileModel.marks_tokens h.tokens_eq hwritten h.code_eq
  have husages : Token.usages tokens = written ++ code := Token.usages_of_marks_eq hmarks
  have hused : ∀ s ∈ written ++ code, .usage s ∈ tokens := by
    intro s hs
    rw [← husages] at hs
    exact Token.mem_usages.1 hs
  refine ⟨hidden, hhidden, ?_, ?_⟩
  · intro s hs
    exact hperm.mem_iff.2 (List.mem_append_right _ hs)
  · intro s hs
    rcases List.mem_append.1 hs with htyped | hcode
    · rcases List.mem_append.1 (hperm.mem_iff.1 htyped) with hmem | hmem
      · exact .inl (hused s (List.mem_append_left _ hmem))
      · exact .inr hmem
    · exact .inl (hused s (List.mem_append_right _ hcode))

/-- The keeper of a name is imported. -/
theorem exists_import_of_keeper (h : AssembledFrom config loader f typed code tokens file)
    {e : Rename} (he : e ∈ file.renames) : ∃ i ∈ file.imports, i.symbol = e.keeper := by
  have hcoherent := (Resolution.scan_valid config.naming f.path typed).coherent
  have hrenames : file.renames =
      (Resolution.resolve config.naming f.path typed).renames.entries :=
    congrArg (fun r => r.renames.entries) h.resolution_eq
  have himports : file.imports = (Resolution.mergeUnrenamed config.naming f.path
      (Resolution.resolve config.naming f.path typed) code).imports :=
    congrArg Resolution.imports h.resolution_eq
  rw [hrenames] at he
  obtain ⟨holder, hkeeper, -, hsub⟩ := hcoherent.keeper_earlier e he
  refine ⟨holder, ?_, hkeeper⟩
  rw [himports]
  exact Resolution.imports_subset_mergeUnrenamed _ code (hsub.subset List.mem_cons_self)

/-- A file needs its imports if each is of a symbol that is used. -/
theorem needsImports_of_imported_used (h : AssembledFrom config loader f typed code tokens file)
    (hused : ∀ i ∈ file.imports, .usage i.symbol ∈ tokens) : file.NeedsImports tokens where
  imported_used := hused
  keeper_used := by
    intro e he
    obtain ⟨i, hi, hkeeper⟩ := h.exists_import_of_keeper he
    rw [← hkeeper]
    exact hused i hi

end AssembledFrom

/-- A symbol that the stream of an assembled file does not use is imported exactly if it is a
foreign symbol of the body of a method of an interface. So a file needs its imports exactly if it
uses all of these elsewhere, and it does if there are no such bodies. -/
theorem assemble_needsImports_iff {config : AssemblyConfig} {loader : MetadataLoader}
    {f : FileModel} {file : AssembledFile} (h : assemble config loader f = .ok file) :
    ∃ tokens hidden, f.tokens config file.imports (loader.load f).1.comments = .ok tokens ∧
      collectHidden f.members = .ok hidden ∧
      (∀ s, .usage s ∉ tokens → (s ∈ file.imports.map (·.symbol) ↔
        s ∈ hidden ∧ Path.isSelf s.module f.path config.extensions = false)) ∧
      (file.NeedsImports tokens ↔
        ∀ s ∈ hidden, Path.isSelf s.module f.path config.extensions = false →
          .usage s ∈ tokens) ∧
      ((∀ i, .declaration (.interface i) ∈ f.members → ∀ m ∈ i.methods, m.body = none) →
        file.NeedsImports tokens) := by
  obtain ⟨typed, code, tokens, hfile⟩ := exists_assembledFrom h
  obtain ⟨hidden, hhidden, hcollected, hused⟩ := hfile.exists_hidden
  have hforeign := config.isForeign_naming_iff f.path
  have hunused : ∀ s, .usage s ∉ tokens → (s ∈ file.imports.map (·.symbol) ↔
      s ∈ hidden ∧ Path.isSelf s.module f.path config.extensions = false) := by
    intro s hs
    constructor
    · intro himported
      obtain ⟨i, hi, rfl⟩ := List.mem_map.1 himported
      obtain ⟨hmem, hself⟩ := hfile.collected_of_import hi
      exact ⟨(hused _ hmem).resolve_left hs, (hforeign _).1 hself⟩
    · rintro ⟨hmem, hself⟩
      obtain ⟨i, -, hi, hsymbol⟩ :=
        hfile.exists_import_of_typed (hcollected s hmem) ((hforeign s).2 hself)
      exact List.mem_map.2 ⟨i, hi, hsymbol⟩
  have hneeds : file.NeedsImports tokens ↔ ∀ s ∈ hidden,
      Path.isSelf s.module f.path config.extensions = false → .usage s ∈ tokens := by
    constructor
    · intro hneeds s hs hself
      by_contra hnot
      obtain ⟨i, hi, hsymbol⟩ := List.mem_map.1 ((hunused s hnot).2 ⟨hs, hself⟩)
      exact hnot (hsymbol ▸ hneeds.imported_used i hi)
    · intro hshown
      refine hfile.needsImports_of_imported_used fun i hi => ?_
      by_contra hnot
      obtain ⟨hmem, hself⟩ := (hunused _ hnot).1 (List.mem_map_of_mem hi)
      exact hnot (hshown _ hmem hself)
  refine ⟨tokens, hidden, hfile.tokens_eq, hhidden, hunused, hneeds, ?_⟩
  intro hbodies
  have hnone : hidden = [] := by
    rw [collectHidden_of_bodiless hbodies] at hhidden
    exact (Except.ok.inj hhidden).symm
  rw [hneeds, hnone]
  intro s hs
  cases hs

/-- An interface in which the body of a method uses a symbol that a property uses too. -/
theorem assemble_needsImports_of_shared_body :
    let item : Symbol := ⟨"Item", "./item"⟩
    let f : FileModel :=
      { path := "store.ts"
        members := [
          .declaration (.interface
            { name := "Store"
              properties := [{ name := "first", type := some (.symbol item) }]
              methods := [{ name := "all", body := some ⟨"%T", [.type (.symbol item)]⟩ }] })] }
    let file : AssembledFile :=
      { path := "store.ts"
        content :=
          "import \x7b Item \x7d from './item';\n\n" ++
            "export interface Store \x7b\n  first: Item;\n  all();\n\x7d\n"
        imports := [⟨item, none⟩]
        renames := [] }
    assemble {} .nothing f = .ok file ∧ ∃ tokens, file.NeedsImports tokens := by
  intro item f file
  have hplaced : file.imports.mapM (Import.placed [] "store.ts") =
      .ok [("./item", ⟨item, none⟩)] := by decide +kernel
  have hspecifiers : Import.specifiers [("./item", ⟨item, none⟩)] = ["./item"] :=
    List.mergeSort_singleton _
  have hblock : Import.block [] "store.ts" file.imports =
      .ofList (Import.statementPieces "./item" [item]) := by
    rw [Import.block_eq_ofList hplaced, hspecifiers]
    decide +kernel
  have hsections : f.sections [] file.imports [] = Import.block [] "store.ts" file.imports ::
      f.emissionOrder.map fun m => Emission.withFreshLine (m.emission []) := rfl
  have htokens : f.tokens {} file.imports [] = .ok
      [.text "import \x7b ", .binding item,
        .text " \x7d from './item';\n\nexport interface Store \x7b\n  first: ", .usage item,
        .text ";\n  all();\n\x7d\n"] := by
    rw [FileModel.tokens, FileModel.emission, hsections, hblock]
    decide +kernel
  have hfile : AssembledFrom {} .nothing f [item, item] [] _ file :=
    ⟨rfl, by decide +kernel, by decide +kernel, by decide +kernel, htokens, by decide +kernel⟩
  have hshown : collectHidden f.members = .ok [item] := by decide +kernel
  obtain ⟨tokens, hidden, htokens', hhidden, -, hneeds, -⟩ :=
    assemble_needsImports_iff hfile.assemble_eq
  have huse : .usage item ∈ tokens := by
    have heq := Except.ok.inj (htokens.symm.trans htokens')
    rw [← heq]
    decide
  refine ⟨hfile.assemble_eq, tokens, hneeds.2 fun s hs _ => ?_⟩
  rw [hshown] at hhidden
  cases hhidden
  rw [List.mem_singleton.1 hs]
  exact huse

/-- The body of a method of an interface is not written, but its symbol is imported, and takes the
name of a symbol that is. -/
theorem assemble_imports_hidden_symbol :
    let hidden : Symbol := ⟨"Item", "./hidden"⟩
    let item : Symbol := ⟨"Item", "./item"⟩
    let f : FileModel :=
      { path := "store.ts"
        members := [
          .declaration (.interface
            { name := "Cache"
              methods := [{ name := "load", body := some ⟨"%T", [.text "Item@./hidden"]⟩ }] }),
          .declaration (.interface
            { name := "Store"
              properties := [{ name := "first", type := some (.symbol item) }] })] }
    let file : AssembledFile :=
      { path := "store.ts"
        content :=
          "import \x7b Item \x7d from './hidden';\n" ++
            "import \x7b Item as Item_autoresolved_1 \x7d from './item';\n\n" ++
            "export interface Cache \x7b\n  load();\n\x7d\n\n" ++
            "export interface Store \x7b\n  first: Item_autoresolved_1;\n\x7d\n"
        imports := [⟨hidden, none⟩, ⟨item, some "Item_autoresolved_1"⟩]
        renames := [⟨item, "Item_autoresolved_1", hidden⟩] }
    ∃ tokens, assemble {} .nothing f = .ok file ∧ f.tokens {} file.imports [] = .ok tokens ∧
      Token.usages tokens = [item] ∧ ¬file.NeedsImports tokens := by
  intro hidden item f file
  have hplaced : file.imports.mapM (Import.placed [] "store.ts") =
      .ok [("./hidden", ⟨hidden, none⟩), ("./item", ⟨item, some "Item_autoresolved_1"⟩)] := by
    decide +kernel
  -- The specifiers are in order already, so that they need not be sorted.
  have hspecifiers : Import.specifiers
      [("./hidden", ⟨hidden, none⟩), ("./item", ⟨item, some "Item_autoresolved_1"⟩)] =
        ["./hidden", "./item"] :=
    List.mergeSort_of_pairwise (by decide +kernel)
  have hblock : Import.block [] "store.ts" file.imports =
      .ofList (Import.statementPieces "./hidden" [hidden] ++
        Import.statementPieces "./item" [item]) := by
    rw [Import.block_eq_ofList hplaced, hspecifiers]
    decide +kernel
  have hsections : f.sections [] file.imports [] = Import.block [] "store.ts" file.imports ::
      f.emissionOrder.map fun m => Emission.withFreshLine (m.emission []) := rfl
  have htokens : f.tokens {} file.imports [] = .ok
      [.text "import \x7b ", .binding hidden,
        .text " \x7d from './hidden';\nimport \x7b ", .binding item,
        .text (" \x7d from './item';\n\nexport interface Cache \x7b\n  load();\n\x7d\n\n" ++
          "export interface Store \x7b\n  first: "), .usage item, .text ";\n\x7d\n"] := by
    rw [FileModel.tokens, FileModel.emission, hsections, hblock]
    decide +kernel
  have hfile : AssembledFrom {} .nothing f [hidden, item] [] _ file :=
    ⟨rfl, by decide +kernel, by decide +kernel, by decide +kernel, htokens, by decide +kernel⟩
  refine ⟨_, hfile.assemble_eq, htokens, by decide, fun hneeds => ?_⟩
  have huse := hneeds.imported_used ⟨hidden, none⟩ List.mem_cons_self
  revert huse
  decide

end ModuleAssembly
