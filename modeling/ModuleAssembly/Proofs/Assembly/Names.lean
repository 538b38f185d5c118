import ModuleAssembly.Proofs.Resolution.Merge
import ModuleAssembly.Proofs.Stream.Statement

/-!
# The names in an assembled file

An assembled file is the rendering of its tokens under its renames (`exists_assembledFrom`), and its
renames agree with its imports, also where code blocks use renamed symbols
(`AssembledFrom.aligned`). So each foreign symbol that the file uses is imported once and bound
once, in the statement for its module, and every use of it is written as the name that is bound
there (`AssembledFile.BindsOnce`). Symbols of typed declarations never share a name, because the
merge adds no alias and takes none away.
-/

namespace ModuleAssembly

/-- A symbol is foreign to a file exactly if its module is not the file's own. -/
theorem AssemblyConfig.isForeign_naming_iff (config : AssemblyConfig) (path : String)
    (s : Symbol) : config.naming.isForeign path s = true ↔
      Path.isSelf s.module path config.extensions = false := by
  simp [NamingRules.isForeign, AssemblyConfig.naming]

/-! ## Names of imports -/

namespace Resolution.Aligned

variable {r : Resolution}

/-- A symbol that is imported is imported once. -/
theorem filter_symbol_eq (h : r.Aligned) {i : Import} (hi : i ∈ r.imports) :
    r.imports.filter (·.symbol == i.symbol) = [i] := by
  have hsymbols := h.symbols_nodup
  obtain ⟨before, after, hsplit⟩ := List.append_of_mem hi
  rw [hsplit, List.map_append, List.map_cons] at hsymbols
  obtain ⟨-, hcons, hapart⟩ := List.nodup_append.1 hsymbols
  obtain ⟨hafter, -⟩ := List.nodup_cons.1 hcons
  have hnone : before.filter (·.symbol == i.symbol) = [] := by
    refine List.filter_eq_nil_iff.2 fun j hj hsymbol => ?_
    exact hapart _ (List.mem_map_of_mem hj) _ List.mem_cons_self (by simpa using hsymbol)
  have hnone' : after.filter (·.symbol == i.symbol) = [] := by
    refine List.filter_eq_nil_iff.2 fun j hj hsymbol => ?_
    exact hafter (List.mem_map.2 ⟨j, hj, by simpa using hsymbol⟩)
  rw [hsplit, List.filter_append, List.filter_cons_of_pos (by simp), hnone, hnone']
  rfl

/-- The alias of an import, if it has one, is not empty. -/
theorem filter_newName (h : r.Aligned) {i : Import} (hi : i ∈ r.imports) :
    i.newName.filter (· != "") = i.newName := by
  have hne := h.newName_ne i hi
  cases hname : i.newName with
  | none => rfl
  | some name =>
    rw [hname] at hne
    have hname' : name ≠ "" := fun heq => hne (by rw [heq])
    simp [Option.filter_some, hname']

/-- An import binds its alias if it has one, and the name of its symbol otherwise. -/
theorem localName_eq (h : r.Aligned) {i : Import} (hi : i ∈ r.imports) :
    i.localName = i.newName.getD i.symbol.name := by
  rw [Import.localName, h.filter_newName hi]

/-- The alias under which an imported symbol is written is that of its import. -/
theorem aliasIn_eq (h : r.Aligned) {i : Import} (hi : i ∈ r.imports) :
    Token.aliasIn r.renames i.symbol = i.newName := by
  rw [Token.aliasIn, h.aliasOf?_eq hi, h.filter_newName hi]

/-- An imported symbol is written as the local name of its import. -/
theorem resolve_usage (h : r.Aligned) {i : Import} (hi : i ∈ r.imports) :
    Token.resolve r.renames (.usage i.symbol) = i.localName := by
  rw [Token.resolve, h.aliasIn_eq hi, h.localName_eq hi]

/-- The binding of an import is written as the name of its symbol, which is its local name, or as
this name and the local name. -/
theorem resolve_binding (h : r.Aligned) {i : Import} (hi : i ∈ r.imports) :
    (i.newName = none ∧ i.localName = i.symbol.name ∧
        Token.resolve r.renames (.binding i.symbol) = i.symbol.name) ∨
      (i.newName = some i.localName ∧
        Token.resolve r.renames (.binding i.symbol) = i.symbol.name ++ " as " ++ i.localName) := by
  unfold Token.resolve
  dsimp only
  rw [h.aliasIn_eq hi, h.localName_eq hi]
  cases i.newName with
  | none => exact .inl ⟨rfl, rfl, rfl⟩
  | some name => exact .inr ⟨rfl, rfl⟩

end Resolution.Aligned

/-! ## What an assembled file is made of -/

/-- How a file was assembled from a model whose declarations use `typed` and whose code blocks use
`code`, through `tokens`. -/
structure AssembledFrom (config : AssemblyConfig) (loader : MetadataLoader) (f : FileModel)
    (typed code : List Symbol) (tokens : List Token) (file : AssembledFile) : Prop where
  /-- It goes where the model goes. -/
  path_eq : file.path = f.path
  /-- The symbols of the declarations were collected. -/
  typed_eq : collect f.members = .ok typed
  /-- The symbols of the code blocks were collected. -/
  code_eq : collectCode f.members = .ok code
  /-- They decide what the file imports and which imports are renamed. -/
  resolution_eq : (⟨⟨file.renames⟩, file.imports⟩ : Resolution) =
    Resolution.mergeUnrenamed config.naming f.path
      (Resolution.resolve config.naming f.path typed) code
  /-- The file was written with these imports. -/
  tokens_eq : f.tokens config file.imports (loader.load f).1.comments = .ok tokens
  /-- Its text is that of the tokens under its renames. -/
  content_eq : file.content = Token.render ⟨file.renames⟩ tokens

/-- A file that is assembled was assembled somehow. -/
theorem exists_assembledFrom {config : AssemblyConfig} {loader : MetadataLoader} {f : FileModel}
    {file : AssembledFile} (h : assemble config loader f = .ok file) :
    ∃ typed code tokens, AssembledFrom config loader f typed code tokens file := by
  unfold assemble assembleWithNotices FileModel.resolution at h
  cases htyped : collect f.members with
  | error fault => simp [htyped, bind, Except.bind, Except.map] at h
  | ok typed =>
    cases hcode : collectCode f.members with
    | error fault => simp [htyped, hcode, bind, Except.bind, Except.map] at h
    | ok code =>
      generalize hr : Resolution.mergeUnrenamed config.naming f.path
        (Resolution.resolve config.naming f.path typed) code = r
      have himports : (Resolution.merge config.naming f.path
          (Resolution.scan config.naming f.path typed).resolution code).imports = r.imports := by
        rw [← hr]
        rfl
      have hrenames : (Resolution.scan config.naming f.path typed).resolution.renames =
          r.renames := by
        rw [← hr]
        rfl
      cases htokens : f.tokens config r.imports (loader.load f).1.comments with
      | error fault =>
        simp [htyped, hcode, himports, htokens, bind, Except.bind, pure, Except.pure,
          Except.map] at h
      | ok tokens =>
        simp only [htyped, hcode, himports, hrenames, htokens, bind, Except.bind, pure,
          Except.pure, Except.map, Except.ok.injEq] at h
        subst h
        exact ⟨typed, code, tokens, rfl, htyped, hcode, hr.symm ▸ rfl, htokens, rfl⟩

/-- An assembled file goes where its model goes. -/
theorem path_of_assemble {config : AssemblyConfig} {loader : MetadataLoader} {f : FileModel}
    {file : AssembledFile} (h : assemble config loader f = .ok file) : file.path = f.path := by
  obtain ⟨typed, code, tokens, hfrom⟩ := exists_assembledFrom h
  exact hfrom.path_eq

/-- A file that may be assembled somehow is assembled. -/
theorem AssembledFrom.assemble_eq {config : AssemblyConfig} {loader : MetadataLoader}
    {f : FileModel} {typed code : List Symbol} {tokens : List Token} {file : AssembledFile}
    (h : AssembledFrom config loader f typed code tokens file) :
    assemble config loader f = .ok file := by
  obtain ⟨path, content, imports, renames⟩ := file
  obtain ⟨hpath, htyped, hcode, hresolution, htokens, hcontent⟩ := h
  simp only at hpath hresolution htokens hcontent
  subst hpath hcontent
  have himports : (Resolution.merge config.naming f.path
      (Resolution.scan config.naming f.path typed).resolution code).imports = imports :=
    (congrArg Resolution.imports hresolution).symm
  have hrenames : (Resolution.scan config.naming f.path typed).resolution.renames = ⟨renames⟩ :=
    (congrArg Resolution.renames hresolution).symm
  simp only [assemble, assembleWithNotices, FileModel.resolution, htyped, hcode, himports, hrenames,
    htokens, bind, Except.bind, pure, Except.pure, Except.map]

namespace AssembledFrom

variable {config : AssemblyConfig} {loader : MetadataLoader} {f : FileModel}
  {typed code : List Symbol} {tokens : List Token} {file : AssembledFile}

/-- The renames and the imports of an assembled file agree. -/
theorem aligned (h : AssembledFrom config loader f typed code tokens file) :
    (⟨⟨file.renames⟩, file.imports⟩ : Resolution).Aligned := by
  rw [h.resolution_eq]
  exact Resolution.mergeUnrenamed_aligned (Resolution.scan_valid _ _ typed).coherent.toAligned code

/-- The symbols that the stream of an assembled file uses, and those that it binds. -/
theorem exists_marks (h : AssembledFrom config loader f typed code tokens file) :
    ∃ written placed, collect (f.members.map Member.written) = .ok written ∧
      written.Sublist typed ∧
      file.imports.mapM (Import.placed config.base f.path) = .ok placed ∧
      Token.usages tokens = written ++ code ∧
      Token.bindings tokens = Import.blockSymbols placed := by
  obtain ⟨written, -, hwritten, -, hsub, -⟩ := collect_written h.typed_eq
  obtain ⟨placed, hplaced, hmarks⟩ := FileModel.marks_tokens h.tokens_eq hwritten h.code_eq
  exact ⟨written, placed, hwritten, hsub, hplaced, Token.usages_of_marks_eq hmarks,
    Token.bindings_of_marks_eq hmarks⟩

/-- A foreign symbol of a declaration is imported, under a local name that no other has. -/
theorem exists_import_of_typed (h : AssembledFrom config loader f typed code tokens file)
    {s : Symbol} (hs : s ∈ typed) (hforeign : config.naming.isForeign f.path s = true) :
    ∃ i ∈ (Resolution.resolve config.naming f.path typed).imports, i ∈ file.imports ∧
      i.symbol = s := by
  have hvalid := Resolution.scan_valid config.naming f.path typed
  -- The declarations decide the import, and the merge leaves it as it is.
  have hmem : s ∈ (Resolution.resolve config.naming f.path typed).imports.map (·.symbol) := by
    have himported := hvalid.imported
    rw [Resolution.resolve, himported, NamingRules.mem_foreign]
    exact ⟨hs, hforeign⟩
  obtain ⟨i, hi, hsymbol⟩ := List.mem_map.1 hmem
  have himports : file.imports = (Resolution.mergeUnrenamed config.naming f.path
      (Resolution.resolve config.naming f.path typed) code).imports :=
    congrArg Resolution.imports h.resolution_eq
  refine ⟨i, hi, ?_, hsymbol⟩
  rw [himports]
  exact Resolution.imports_subset_mergeUnrenamed _ code hi

/-- A foreign symbol that is used is imported. -/
theorem exists_import_of_usage (h : AssembledFrom config loader f typed code tokens file)
    {s : Symbol} (hs : .usage s ∈ tokens) (hforeign : config.naming.isForeign f.path s = true) :
    ∃ i ∈ file.imports, i.symbol = s := by
  obtain ⟨written, -, -, hsub, -, husages, -⟩ := h.exists_marks
  have hused : s ∈ written ++ code := by
    rw [← husages]
    exact Token.mem_usages.2 hs
  -- It is used by a declaration, or by a code block.
  rcases List.mem_append.1 hused with hwritten | hcode
  · obtain ⟨i, -, hi, hsymbol⟩ := h.exists_import_of_typed (hsub.subset hwritten) hforeign
    exact ⟨i, hi, hsymbol⟩
  · have hmerged := Resolution.mem_imported_mergeUnrenamed
      (r := Resolution.resolve config.naming f.path typed) hcode hforeign
    rw [← h.resolution_eq] at hmerged
    exact List.mem_map.1 hmerged

/-- What is imported is not of the file's own module. -/
theorem isSelf_of_mem_imports (h : AssembledFrom config loader f typed code tokens file)
    {i : Import} (hi : i ∈ file.imports) :
    Path.isSelf i.symbol.module f.path config.extensions = false := by
  have himported : i.symbol ∈ (Resolution.mergeUnrenamed config.naming f.path
      (Resolution.resolve config.naming f.path typed) code).imported := by
    rw [← h.resolution_eq]
    exact List.mem_map_of_mem hi
  obtain ⟨-, hforeign⟩ := Resolution.mem_imported_mergeUnrenamed_resolve.1 himported
  exact (config.isForeign_naming_iff f.path i.symbol).1 hforeign

end AssembledFrom

/-! ## Uses and bindings -/

/-- The file imports and binds a symbol once, in the statement for its module, and every use of it
is written as the name that is bound there. -/
structure AssembledFile.BindsOnce (config : AssemblyConfig) (file : AssembledFile)
    (tokens : List Token) (s : Symbol) : Prop where
  /-- Just one import is of the symbol, and it has the name that uses are written as. -/
  imported_once : ∃ i, file.imports.filter (·.symbol == s) = [i] ∧
    Token.resolve ⟨file.renames⟩ (.usage s) = i.localName
  /-- The stream binds the symbol once. -/
  bound_once : (Token.bindings tokens).count s = 1
  /-- The statement for the specifier of its module binds it. -/
  in_statement : ∃ specifier symbols,
    Path.specifier config.base s.module file.path = .ok specifier ∧ s ∈ symbols ∧
      Token.HasStatement specifier symbols tokens
  /-- The symbol is bound to its own name or to an alias, and uses are written as that. -/
  written : (Token.resolve ⟨file.renames⟩ (.binding s) = s.name ∧
      Token.resolve ⟨file.renames⟩ (.usage s) = s.name) ∨
    ∃ name, Token.resolve ⟨file.renames⟩ (.binding s) = s.name ++ " as " ++ name ∧
      Token.resolve ⟨file.renames⟩ (.usage s) = name

namespace AssembledFrom

variable {config : AssemblyConfig} {loader : MetadataLoader} {f : FileModel}
  {typed code : List Symbol} {tokens : List Token} {file : AssembledFile}

/-- The symbol of an import is bound once, in the statement for its module. -/
theorem bindsOnce_of_import (h : AssembledFrom config loader f typed code tokens file) {i : Import}
    (hi : i ∈ file.imports) : file.BindsOnce config tokens i.symbol := by
  obtain ⟨-, placed, -, -, hplaced, -, hbindings⟩ := h.exists_marks
  obtain ⟨himports, hspecifiers⟩ := Import.mapM_placed hplaced
  have husage := h.aligned.resolve_usage hi
  refine ⟨⟨i, h.aligned.filter_symbol_eq hi, husage⟩, ?_, ?_, ?_⟩
  · -- The statements bind the imported symbols, of which none is repeated.
    have hperm : (Token.bindings tokens).Perm (file.imports.map (·.symbol)) := by
      rw [hbindings, ← himports, List.map_map]
      exact Import.blockSymbols_perm placed
    rw [hperm.count_eq]
    exact List.count_eq_one_of_mem h.aligned.symbols_nodup (List.mem_map_of_mem hi)
  · rw [← himports] at hi
    obtain ⟨p, hp, rfl⟩ := List.mem_map.1 hi
    have hspecifier : p.1 ∈ Import.specifiers placed :=
      Import.mem_specifiers.2 (List.mem_map_of_mem hp)
    refine ⟨p.1, _, ?_, Import.mem_boundSymbols.2 ⟨p, hp, rfl, rfl⟩,
      FileModel.hasStatement_tokens h.tokens_eq hplaced hspecifier⟩
    rw [h.path_eq]
    exact hspecifiers p hp
  · rcases h.aligned.resolve_binding hi with ⟨-, hlocal, hbinding⟩ | ⟨-, hbinding⟩
    · exact .inl ⟨hbinding, by rw [husage, hlocal]⟩
    · exact .inr ⟨i.localName, hbinding, husage⟩

/-- What is written for a declaration uses symbols that are collected. -/
theorem mem_typed_of_usage (h : AssembledFrom config loader f typed code tokens file)
    {docs : Docs} {d : Declaration} {s : Symbol} (hd : d ∈ f.declarations)
    (hs : .usage s ∈ (d.emission docs).items) : s ∈ typed := by
  obtain ⟨written, -, hwritten, hsub, -⟩ := h.exists_marks
  rw [collect, filterMap_written, List.map_map, Output.toExcept_eq_ok_iff] at hwritten
  have hmark : Token.usage s ∈ (d.emission docs).marks.items :=
    List.mem_filterMap.2 ⟨.usage s, hs, rfl⟩
  obtain ⟨r, hr, hrs⟩ := List.mem_map.1 ((d.writes_emission docs).cutOf.subset hmark)
  cases hrs
  exact hsub.subset (Output.mem_of_concat_eq hwritten (List.mem_map_of_mem hd) hr)

/-- Different foreign symbols of declarations are written as different names. -/
theorem resolve_usage_ne (h : AssembledFrom config loader f typed code tokens file) {s t : Symbol}
    (hs : s ∈ typed) (hsforeign : config.naming.isForeign f.path s = true) (ht : t ∈ typed)
    (htforeign : config.naming.isForeign f.path t = true) (hne : s ≠ t) :
    Token.resolve ⟨file.renames⟩ (.usage s) ≠ Token.resolve ⟨file.renames⟩ (.usage t) := by
  obtain ⟨i, hi, hifile, rfl⟩ := h.exists_import_of_typed hs hsforeign
  obtain ⟨j, hj, hjfile, rfl⟩ := h.exists_import_of_typed ht htforeign
  have hcoherent := (Resolution.scan_valid config.naming f.path typed).coherent
  -- Both are written as local names that the declarations decided, and these differ.
  intro hsame
  have hlocal : i.localName = j.localName := by
    calc i.localName = Token.resolve ⟨file.renames⟩ (.usage i.symbol) :=
          (h.aligned.resolve_usage hifile).symm
      _ = Token.resolve ⟨file.renames⟩ (.usage j.symbol) := hsame
      _ = j.localName := h.aligned.resolve_usage hjfile
  have hij : i = j := List.inj_on_of_nodup_map hcoherent.localNames_nodup hi hj hlocal
  exact hne (by rw [hij])

end AssembledFrom

/-- An assembled file is the rendering of its tokens. Each symbol of another module that these use,
in declarations or in code blocks, is imported and bound once, in the statement for its module, and
every use of it is written as the name bound there; and no two such symbols that declarations use
are written as the same name. -/
theorem assemble_bindsOnce {config : AssemblyConfig} {loader : MetadataLoader} {f : FileModel}
    {file : AssembledFile} (h : assemble config loader f = .ok file) :
    ∃ tokens, f.tokens config file.imports (loader.load f).1.comments = .ok tokens ∧
      file.content = Token.render ⟨file.renames⟩ tokens ∧
      (∀ s, .usage s ∈ tokens → Path.isSelf s.module f.path config.extensions = false →
        file.BindsOnce config tokens s) ∧
      ∀ s t, s ≠ t → Path.isSelf s.module f.path config.extensions = false →
        Path.isSelf t.module f.path config.extensions = false →
        (∃ d ∈ f.declarations, .usage s ∈ (d.emission (loader.load f).1.comments).items) →
        (∃ d ∈ f.declarations, .usage t ∈ (d.emission (loader.load f).1.comments).items) →
        Token.resolve ⟨file.renames⟩ (.usage s) ≠ Token.resolve ⟨file.renames⟩ (.usage t) := by
  obtain ⟨typed, code, tokens, hfile⟩ := exists_assembledFrom h
  have hforeign : ∀ s : Symbol, Path.isSelf s.module f.path config.extensions = false →
      config.naming.isForeign f.path s = true := by
    intro s hs
    simp [NamingRules.isForeign, AssemblyConfig.naming, hs]
  refine ⟨tokens, hfile.tokens_eq, hfile.content_eq, ?_, ?_⟩
  · intro s hs hself
    obtain ⟨i, hi, rfl⟩ := hfile.exists_import_of_usage hs (hforeign s hself)
    exact hfile.bindsOnce_of_import hi
  · rintro s t hne hs ht ⟨d, hd, hsd⟩ ⟨e, he, hte⟩
    exact hfile.resolve_usage_ne (hfile.mem_typed_of_usage hd hsd) (hforeign s hs)
      (hfile.mem_typed_of_usage he hte) (hforeign t ht) hne

/-- Two modules export an item, an interface uses both, and a code block in front of it uses the
renamed one. -/
theorem assemble_bindsOnce_of_collision :
    let first : Symbol := ⟨"Item", "./a"⟩
    let second : Symbol := ⟨"Item", "./b"⟩
    let f : FileModel :=
      { path := "store.ts"
        members := [
          .code ⟨"%T.flush();", [.type (.symbol second)]⟩,
          .declaration (.interface
            { name := "Store"
              properties := [
                { name := "all", type := some (.array (.symbol first)) },
                { name := "by", type := some (.generic (.named "Map") [.symbol second]) }] })] }
    let file : AssembledFile :=
      { path := "store.ts"
        content :=
          "import \x7b Item \x7d from './a';\n" ++
            "import \x7b Item as Item_autoresolved_1 \x7d from './b';\n\n" ++
            "export interface Store \x7b\n  all: Item[];\n  by: Map<Item_autoresolved_1>;\n" ++
            "\x7d\n\nItem_autoresolved_1.flush();\n"
        imports := [⟨first, none⟩, ⟨second, some "Item_autoresolved_1"⟩]
        renames := [⟨second, "Item_autoresolved_1", first⟩] }
    assemble {} .nothing f = .ok file ∧ ∃ tokens, .usage second ∈ tokens ∧
      file.BindsOnce {} tokens second ∧
      Token.resolve ⟨file.renames⟩ (.usage first) ≠
        Token.resolve ⟨file.renames⟩ (.usage second) := by
  intro first second f file
  have hplaced : file.imports.mapM (Import.placed [] "store.ts") =
      .ok [("./a", ⟨first, none⟩), ("./b", ⟨second, some "Item_autoresolved_1"⟩)] := by
    decide +kernel
  -- The specifiers are in order already, so that they need not be sorted.
  have hspecifiers : Import.specifiers
      [("./a", ⟨first, none⟩), ("./b", ⟨second, some "Item_autoresolved_1"⟩)] = ["./a", "./b"] :=
    List.mergeSort_of_pairwise (by decide +kernel)
  have hblock : Import.block [] "store.ts" file.imports =
      .ofList (Import.statementPieces "./a" [first] ++ Import.statementPieces "./b" [second]) := by
    rw [Import.block, hplaced]
    dsimp only
    rw [Import.statements_eq, hspecifiers]
    decide +kernel
  have hsections : f.sections [] file.imports [] = Import.block [] "store.ts" file.imports ::
      f.emissionOrder.map fun m => Emission.withFreshLine (m.emission []) := rfl
  have htokens : f.tokens {} file.imports [] = .ok
      [.text "import \x7b ", .binding first, .text " \x7d from './a';\nimport \x7b ",
        .binding second, .text " \x7d from './b';\n\nexport interface Store \x7b\n  all: ",
        .usage first, .text "[];\n  by: Map<", .usage second, .text ">;\n\x7d\n\n",
        .usage second, .text ".flush();\n"] := by
    rw [FileModel.tokens, FileModel.emission, hsections, hblock]
    decide +kernel
  have hfile : AssembledFrom {} .nothing f [first, second] [second] _ file :=
    ⟨rfl, by decide +kernel, by decide +kernel, by decide +kernel, htokens, by decide +kernel⟩
  obtain ⟨tokens, htokens', -, hbinds, hnames⟩ := assemble_bindsOnce hfile.assemble_eq
  have huse : .usage second ∈ tokens := by
    have heq := Except.ok.inj (htokens.symm.trans htokens')
    rw [← heq]
    decide
  have hstore : ∀ s, s = first ∨ s = second → ∃ d ∈ f.declarations,
      .usage s ∈ (d.emission (MetadataLoader.nothing.load f).1.comments).items := by
    intro s hs
    refine ⟨_, List.mem_singleton_self _, ?_⟩
    rcases hs with rfl | rfl
    · decide +kernel
    · decide +kernel
  refine ⟨hfile.assemble_eq, tokens, huse, ?_, ?_⟩
  · exact hbinds second huse (by decide +kernel)
  · exact hnames first second (by decide) (by decide +kernel) (by decide +kernel)
      (hstore first (.inl rfl)) (hstore second (.inr rfl))

end ModuleAssembly
