import ModuleAssembly.Plugin
import ModuleAssembly.Proofs.Generation.References
import ModuleAssembly.Proofs.Generation.TypeNames

/-!
# The order of the files of a request

What is generated for a file depends on the type map only by what is found in it
(`Generation.file_congr`), and this does not depend on the order of the files if no full name is
declared twice (`TypeMap.find?_ofFiles_perm`). The comments of a file are found by its path, which
no other file has. So the text of a file is the same in the responses to two requests for the same
files in two orders, whichever files they single out (`Plugin.respond_perm`).
-/

namespace ModuleAssembly

open Descriptor (Field File Message Method Request Service)

/-! ## What a generated file depends on -/

namespace Generation

open TypeMap (Scope)

variable {types others : TypeMap} (options : GenerationOptions)

/-- The type of a field depends on what is found for its name. -/
theorem fieldType_congr (h : ∀ name, types.find? name = others.find? name) (f : Field) :
    fieldType types options f = fieldType others options f := by
  simp only [fieldType, lookup, h]

/-- So does the property of a field. -/
theorem fieldProperty_congr (h : ∀ name, types.find? name = others.find? name)
    (entries : List (String × Message)) (f : Field) :
    fieldProperty types options entries f = fieldProperty others options entries f := by
  have hslot : slotProperty types options = slotProperty others options := by
    funext found
    cases found with
    | plain f => simp only [slotProperty, fieldType_congr options h]
    | map f key value => simp only [slotProperty, fieldType_congr options h]
  rw [fieldProperty, fieldProperty, hslot]

/-- So does the interface of a message. -/
theorem interface_congr (h : ∀ name, types.find? name = others.find? name) (s : Scope)
    (name : String) (fields : List Field) (nested : List Message) :
    interface types options s name fields nested =
      interface others options s name fields nested := by
  have hproperty : ∀ entries, fieldProperty types options entries =
      fieldProperty others options entries := fun entries =>
    funext fun f => fieldProperty_congr options h entries f
  rw [interface, interface, hproperty]

/-- So do the declarations of messages. -/
theorem messages_congr (h : ∀ name, types.find? name = others.find? name) (f : File) :
    messages types options (Scope.ofFile f) f.messages =
      messages others options (Scope.ofFile f) f.messages := by
  have hdeclare : declare types options f = declare others options f := by
    funext d
    obtain ⟨place, m | e⟩ := d
    · exact interface_congr options h _ _ _ _
    · rfl
  have hwalk : ∀ types : TypeMap, messages types options (Scope.ofFile f) f.messages =
      declareAll types options f (TypeMap.typesInAll ⟨[], [4], false⟩ 0 f.messages) :=
    fun types => messages_eq_declareAll types options f (p := ⟨[], [4], false⟩) rfl 0 f.messages
  rw [hwalk, hwalk, declareAll, declareAll, hdeclare]

/-- So does the interface of a service. -/
theorem service_congr (h : ∀ name, types.find? name = others.find? name) (s : Service) :
    service types options s = service others options s := by
  have hmethod : method types options = method others options := by
    funext m
    simp only [method, lookup, h]
  rw [service, service, hmethod]

/-- Type maps in which the same is found give the same generated files. -/
theorem file_congr (h : ∀ name, types.find? name = others.find? name) (f : File) :
    file types options f = file others options f := by
  have hservice : service types options = service others options :=
    funext fun s => service_congr options h s
  rw [file, file, messages_congr options h, hservice]

end Generation

/-- Where no full name is declared twice, the order of the files does not matter for what is
found. -/
theorem TypeMap.find?_ofFiles_perm {files others : List File} (hperm : files.Perm others)
    (hdistinct : (fullNames files).Nodup) (name : String) :
    (ofFiles files).find? name = (ofFiles others).find? name := by
  have hentries : (files.flatMap fileEntries).Perm (others.flatMap fileEntries) :=
    hperm.flatMap_right fileEntries
  have hkeys : ((files.flatMap fileEntries).map (·.1)).Nodup := by
    rwa [keys_flatMap_fileEntries]
  have hkeys' : ((others.flatMap fileEntries).map (·.1)).Nodup :=
    (hentries.map (·.1)).nodup_iff.1 hkeys
  refine Option.ext fun s => ?_
  exact (Association.lookup_ofList_eq_some_iff hkeys).trans
    (hentries.mem_iff.trans (Association.lookup_ofList_eq_some_iff hkeys').symm)

/-- A file is assembled with what a loader has for it alone. -/
theorem assemble_congr {config : AssemblyConfig} {loader other : MetadataLoader} {f : FileModel}
    (h : loader f = other f) : assemble config loader f = assemble config other f := by
  have hload : loader.load f = other.load f := by rw [MetadataLoader.load, h, MetadataLoader.load]
  rw [assemble_eq_bind, assemble_eq_bind, hload]

namespace Plugin

open Generation (outputPath sourceComments)

/-! ## Single files -/

/-- The comments of the source of one file. -/
def ownComments (f : File) : MetadataLoader :=
  fun _ =>
    match sourceComments f with
    | .ok comments => .ok (some ⟨comments⟩)
    | .error fault => .error fault.message

/-- The answer for one file of a request. -/
def respondFile (config : Config) (types : TypeMap) (options : GenerationOptions) (f : File) :
    Except Fault ResponseFile := do
  let model ← Generation.file types options f
  let assembled ← assemble config.assembly (ownComments f) model
  return ⟨assembled.path, assembled.content⟩

/-- An answered file goes where the file is generated. -/
theorem name_of_respondFile {config : Config} {types : TypeMap} {options : GenerationOptions}
    {f : File} {x : ResponseFile} (h : respondFile config types options f = .ok x) :
    x.name = outputPath f := by
  obtain ⟨model, hmodel, hrest⟩ := Fault.exists_of_bind_eq_ok h
  obtain ⟨assembled, hassembled, hx⟩ := Fault.exists_of_bind_eq_ok hrest
  rw [← Except.ok.inj hx, ← Generation.path_of_file hmodel, ← path_of_assemble hassembled]

variable {config : Config} {r : Request} {a : Response}

/-- The sources of generated files, by their paths, are their descriptors, if no two of them go to
one path. -/
theorem commentLoader_eq {types : TypeMap} {options : GenerationOptions} {sources : List File}
    {models : List FileModel} (hpaths : (sources.map outputPath).Nodup)
    (h : sources.mapM (Generation.file types options) = .ok models) {f : File} (hf : f ∈ sources)
    {model : FileModel} (hmodel : Generation.file types options f = .ok model) :
    commentLoader (Association.ofList ((models.map (·.path)).zip sources)) model =
      ownComments f model := by
  have hpairs : (models.map (·.path)).zip sources = sources.map fun f => (outputPath f, f) := by
    rw [Fault.map_eq_map_of_mapM h fun _ _ hfile => Generation.path_of_file hfile]
    conv => lhs; rw [← List.map_id sources, List.map_map, List.zip_map']
    rfl
  have hkeys : ((sources.map fun f => (outputPath f, f)).map (·.1)).Nodup := by
    rwa [List.map_map]
  have hfound : (Association.ofList (sources.map fun f => (outputPath f, f))).lookup model.path =
      some f := by
    rw [Generation.path_of_file hmodel]
    exact (Association.lookup_ofList_eq_some_iff hkeys).2 (List.mem_map_of_mem hf)
  rw [commentLoader, hpairs, hfound]
  rfl

/-- If no two files of a request are generated at one path, then an answer has the answers for its
targets, one by one. -/
theorem forall₂_respondFile (hpaths : (r.files.map outputPath).Nodup)
    (h : respond config r = .ok a) :
    List.Forall₂ (fun f x => respondFile config (TypeMap.ofFiles r.files)
      (requestOptions config r) f = .ok x) (targets r) a.files := by
  obtain ⟨models, hmodels, hrest⟩ := Fault.exists_of_bind_eq_ok h
  obtain ⟨files, hfiles, ha⟩ := Fault.exists_of_bind_eq_ok hrest
  have hdistinct : ((targets r).map outputPath).Nodup :=
    hpaths.sublist (List.filter_sublist.map outputPath)
  have hsteps := (List.forall₂_and_left _ _).2
    ⟨fun f hf => hf, Fault.forall₂_of_mapM_of_mapM hmodels hfiles⟩
  rw [← Except.ok.inj ha]
  refine List.forall₂_map_right_iff.2 (hsteps.imp ?_)
  rintro f file ⟨hf, model, hmodel, hfile⟩
  rw [assemble_congr (commentLoader_eq hdistinct hmodels hf hmodel)] at hfile
  rw [respondFile, hmodel]
  change (do
    let assembled ← assemble config.assembly (ownComments f) model
    return (⟨assembled.path, assembled.content⟩ : ResponseFile)) = _
  rw [hfile]
  rfl

/-! ## Two requests -/

/-- The text of the answer for one file, if there is an answer. -/
def textOf (config : Config) (types : TypeMap) (options : GenerationOptions) (f : File) : String :=
  match respondFile config types options f with
  | .ok x => x.content
  | .error _ => ""

/-- An answer has the texts of its targets at their paths. -/
theorem files_eq_of_respond (hpaths : (r.files.map outputPath).Nodup)
    (h : respond config r = .ok a) :
    a.files = (targets r).map fun f =>
      ⟨outputPath f, textOf config (TypeMap.ofFiles r.files) (requestOptions config r) f⟩ := by
  have heach := forall₂_respondFile hpaths h
  -- Each file of the answer is equal to the one at its place in the list of texts.
  have hequal : List.Forall₂ (· = ·) a.files ((targets r).map fun f =>
      ⟨outputPath f, textOf config (TypeMap.ofFiles r.files) (requestOptions config r) f⟩) := by
    refine List.forall₂_map_right_iff.2 (heach.flip.imp fun x f hx => ?_)
    have hx : respondFile config (TypeMap.ofFiles r.files) (requestOptions config r) f = .ok x := hx
    rw [textOf, hx, ← name_of_respondFile hx]
  rwa [List.forall₂_eq_eq_eq] at hequal

/-- Two requests have the same parameter and the same files in two orders, none of whose full names
is declared twice and no two of which are generated at one path. If both are answered, one text for
each file is its text in both answers: each has the files that its request wants, in their order, at
their paths. So files of the two answers at one path are equal. -/
theorem respond_perm {config : Config} {r r' : Request} {a a' : Response}
    (hparameter : r.parameter = r'.parameter) (hperm : r.files.Perm r'.files)
    (hdistinct : (TypeMap.fullNames r.files).Nodup) (hpaths : (r.files.map outputPath).Nodup)
    (ha : respond config r = .ok a) (ha' : respond config r' = .ok a') :
    (∃ text : File → String,
      a.files = (targets r).map (fun f => ⟨outputPath f, text f⟩) ∧
        a'.files = (targets r').map (fun f => ⟨outputPath f, text f⟩)) ∧
      (a.files.map (·.name)).Sublist (r.files.map outputPath) ∧
      (a'.files.map (·.name)).Sublist (r'.files.map outputPath) ∧
      ∀ x ∈ a.files, ∀ x' ∈ a'.files, x.name = x'.name → x = x' := by
  have hpaths' : (r'.files.map outputPath).Nodup := (hperm.map outputPath).nodup_iff.1 hpaths
  have hfiles := files_eq_of_respond hpaths ha
  have hfiles' := files_eq_of_respond hpaths' ha'
  have htext : textOf config (TypeMap.ofFiles r'.files) (requestOptions config r') =
      textOf config (TypeMap.ofFiles r.files) (requestOptions config r) := by
    funext f
    have hoptions : requestOptions config r' = requestOptions config r := by
      rw [requestOptions, requestOptions, hparameter]
    rw [textOf, textOf, respondFile, respondFile, hoptions,
      Generation.file_congr _ (TypeMap.find?_ofFiles_perm hperm hdistinct)]
  -- From here on both answers have the same texts, and only their lists of targets differ.
  rw [htext] at hfiles'
  have hnames : ∀ (r : Request) (text : File → String),
      (((targets r).map fun f => (⟨outputPath f, text f⟩ : ResponseFile)).map (·.name)).Sublist
        (r.files.map outputPath) := fun r text => by
    rw [List.map_map]
    exact List.filter_sublist.map outputPath
  refine ⟨⟨_, hfiles, hfiles'⟩, hfiles ▸ hnames r _, hfiles' ▸ hnames r' _, ?_⟩
  intro x hx x' hx' hname
  rw [hfiles] at hx
  rw [hfiles'] at hx'
  obtain ⟨f, hf, rfl⟩ := List.mem_map.1 hx
  obtain ⟨f', hf', rfl⟩ := List.mem_map.1 hx'
  have hmem : f ∈ r.files := List.mem_of_mem_filter hf
  have hmem' : f' ∈ r.files := hperm.mem_iff.2 (List.mem_of_mem_filter hf')
  rw [List.inj_on_of_nodup_map hpaths hmem hmem' hname]

/-- Two files, one of which uses a type of the other: all of them in one order, and one of them in
the other order. -/
theorem respond_perm_of_two_orders :
    let shop : File :=
      { name := "shop.proto", package := "shop", messages := [{ name := "Item" }]
        locations := [{ path := [4, 0], leading := " On sale.\n" }] }
    let field : Field := { name := "item", type := .message, typeName := ".shop.Item" }
    let sale : File :=
      { name := "sale.proto", messages := [{ name := "Sale", fields := [field] }] }
    let all : Request := { files := [shop, sale] }
    let one : Request := { files := [sale, shop], wanted := ["sale.proto"] }
    all.files.Perm one.files ∧ (TypeMap.fullNames all.files).Nodup ∧
      (all.files.map outputPath).Nodup ∧
      ∃ a a', respond {} all = .ok a ∧ respond {} one = .ok a' ∧
        a.files.map (·.name) = ["shop.ts", "sale.ts"] ∧ a'.files.map (·.name) = ["sale.ts"] ∧
        ∀ x ∈ a.files, ∀ x' ∈ a'.files, x.name = x'.name → x = x' := by
  intro shop field sale all one
  have hparameter : all.parameter = one.parameter := rfl
  have hperm : all.files.Perm one.files := List.Perm.swap sale shop []
  have hdistinct : (TypeMap.fullNames all.files).Nodup := by decide +kernel
  have hpaths : (all.files.map outputPath).Nodup := by decide +kernel
  have hall : (respond {} all).map (fun a => a.files.map (·.name)) =
      .ok ["shop.ts", "sale.ts"] := by decide +kernel
  have hone : (respond {} one).map (fun a => a.files.map (·.name)) = .ok ["sale.ts"] := by
    decide +kernel
  obtain ⟨a, ha, hnames⟩ := Fault.exists_of_map_eq_ok hall
  obtain ⟨a', ha', hnames'⟩ := Fault.exists_of_map_eq_ok hone
  obtain ⟨-, -, -, hsame⟩ := respond_perm hparameter hperm hdistinct hpaths ha ha'
  exact ⟨hperm, hdistinct, hpaths, a, a', ha, ha', hnames, hnames', hsame⟩

end Plugin

end ModuleAssembly
