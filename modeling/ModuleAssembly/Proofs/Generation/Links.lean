import ModuleAssembly.Plugin
import ModuleAssembly.Proofs.Assembly.Exports
import ModuleAssembly.Proofs.Assembly.Needed
import ModuleAssembly.Proofs.Generation.References

/-!
# References between generated files

A reference of a generated file leads to a declaration. The type map gives the full name of a
message or enumeration the module of its file and a name in it; the file generated for that file is
where the module is, and it exports the name (`Generation.exists_exports_of_isLinked`). So, when all
files of a request are generated, a reference to the module of the file itself is known to be one,
and every other local reference, and with it every local import, leads to another generated file
(`Plugin.generated_resolves`).
-/

namespace ModuleAssembly

open Descriptor (Enum File Message Request)
open Generation (IsLinked KeepsEntries NamesEntry moduleName)

/-! ## The type map and the declarations -/

namespace TypeMap

/-- The symbols of a file come from the module that is generated for it. -/
theorem module_of_mem_fileEntries {f : File} {fullName : String} {s : Symbol}
    (h : (fullName, s) ∈ fileEntries f) : s.module = modulePath f := by
  rw [fileEntries_eq_map] at h
  obtain ⟨d, -, heq⟩ := List.mem_map.1 h
  cases heq
  rfl

/-- What the type map finds is the entry of a file. -/
theorem exists_of_find?_ofFiles {files : List File} {fullName : String} {s : Symbol}
    (h : (ofFiles files).find? fullName = some s) : ∃ f ∈ files, (fullName, s) ∈ fileEntries f :=
  List.mem_flatMap.1 (Association.mem_of_lookup_ofList h)

end TypeMap

namespace Generation

open TypeMap (DeclaredType typesOf)

variable {types : TypeMap} {options : GenerationOptions}

/-- A file that declares what the generator makes of a type exports the type. -/
theorem exports_of_declare {f : File} {d : DeclaredType} {x : Declaration}
    (h : declare types options f d = .ok x) {model : FileModel} (hx : x ∈ model.declarations) :
    model.Exports (d.generatedName f) := by
  obtain ⟨place, m | e⟩ := d
  · obtain ⟨properties, -, hinterface⟩ := Fault.exists_of_bind_eq_ok h
    obtain rfl := Except.ok.inj hinterface
    exact ⟨_, hx, rfl, .inl (Interface.hasHead rfl rfl)⟩
  · obtain rfl := Except.ok.inj h
    exact ⟨_, hx, rfl, .inr (Enumeration.hasHead rfl rfl)⟩

/-- Where map entries are kept to, a type that is not named like one is generated. -/
theorem isGenerated_of_not_namesEntry {files : List File} (hkeeps : KeepsEntries files) {f : File}
    (hf : f ∈ files) {d : DeclaredType} (hd : d ∈ typesOf f)
    (hname : ¬NamesEntry files (d.fullName f)) : d.isGenerated = true := by
  obtain ⟨place, body⟩ := d
  have hplace : place.inEntry = false := TypeMap.inEntry_eq_false (hkeeps.bare f hf) hd
  cases body with
  | message m =>
    have hmem : ⟨place.scope f, m⟩ ∈ TypeMap.declaredIn f :=
      TypeMap.mem_declaredIn.2 ⟨place, hd, rfl⟩
    have hmap : m.mapEntry = false :=
      Bool.eq_false_iff.2 fun hmap => hname ⟨f, hf, _, hmem, hmap, rfl⟩
    simp only [DeclaredType.isGenerated, hplace, hmap, Bool.or_self, Bool.not_false]
  | enumeration e => simp only [DeclaredType.isGenerated, hplace, Bool.not_false]

/-- The file that is generated for a descriptor's file exports what the type map has for it, but for
map entries. -/
theorem exports_of_mem_fileEntries {files : List File} (hkeeps : KeepsEntries files) {f : File}
    (hf : f ∈ files) {fullName : String} {s : Symbol} (hname : ¬NamesEntry files fullName)
    (hentry : (fullName, s) ∈ TypeMap.fileEntries f) {model : FileModel}
    (h : file types options f = .ok model) : model.Exports s.name := by
  obtain ⟨inner, services, hfrom⟩ := exists_generatedFrom h
  rw [TypeMap.fileEntries_eq_map] at hentry
  obtain ⟨d, hd, heq⟩ := List.mem_map.1 hentry
  cases heq
  obtain ⟨x, hx, hdeclare⟩ :=
    hfrom.exists_declare_of_mem hd (isGenerated_of_not_namesEntry hkeeps hf hd hname)
  exact exports_of_declare hdeclare hx

/-- A local symbol of a generated file is exported by the file that its module names. -/
theorem exists_exports_of_isLinked {files : List File} (hkeeps : KeepsEntries files) {s : Symbol}
    (hs : IsLinked files s) {m : String} (hm : s.module = Path.localMark ++ m) :
    ∃ g ∈ files, moduleName g.name = m ∧ ∀ types options model,
      file types options g = .ok model → model.Exports s.name := by
  rcases hs with hpackage | ⟨fullName, hname, hfound⟩
  · rw [Text.after?_eq_some_iff.2 hm] at hpackage
    cases hpackage
  · obtain ⟨g, hg, hentry⟩ := TypeMap.exists_of_find?_ofFiles hfound
    have hmodule : s.module = Path.localMark ++ moduleName g.name :=
      TypeMap.module_of_mem_fileEntries hentry
    refine ⟨g, hg, ?_, fun types options model h =>
      exports_of_mem_fileEntries hkeeps hg hname hentry h⟩
    rw [hm, String.append_right_inj] at hmodule
    exact hmodule.symm

end Generation

/-! ## Modules and paths -/

/-- A text that ends with another has what is in front of it. -/
theorem Text.before?_append (s tail : String) : before? tail (s ++ tail) = some s := by
  unfold before?
  simp

/-- With an extension at its end a path starts with the mark of local modules only if it does so
without. -/
theorem Path.after?_append_ts {m : String} (h : Text.after? localMark m = none) :
    Text.after? localMark (m ++ ".ts") = none := by
  cases hafter : Text.after? localMark (m ++ ".ts") with
  | none => rfl
  | some rest =>
    have hlists : m.toList ++ ['.', 't', 's'] = '.' :: '/' :: rest.toList := by
      have hboth := congrArg String.toList (Text.after?_eq_some_iff.1 hafter)
      rw [String.toList_append, String.toList_append] at hboth
      exact hboth
    -- The mark is as long as two characters, and the extension does not go on like it.
    match hm : m.toList, hlists with
    | [], hlists => cases hlists
    | [c], hlists =>
      have hslash : '.' = '/' := (List.cons.inj (List.cons.inj hlists).2).1
      cases hslash
    | c :: d :: cs, hlists =>
      obtain ⟨rfl, htail⟩ := List.cons.inj hlists
      obtain ⟨rfl, -⟩ := List.cons.inj htail
      have hstart : m = localMark ++ String.ofList cs := by
        refine String.toList_inj.1 ?_
        rw [hm, String.toList_append, String.toList_ofList]
        rfl
      rw [Text.after?_eq_some_iff.2 hstart] at h
      cases h

/-- The file that is generated for a module is known by this module. -/
theorem Path.moduleOf_append_ts {m : String} (h : Text.after? localMark m = none)
    (extensions : List String) : moduleOf (m ++ ".ts") (".ts" :: extensions) = m := by
  have hbefore := Text.before?_append m ".ts"
  rw [moduleOf, Text.withoutStart, Path.after?_append_ts h, Option.getD_none,
    List.find?_cons_of_pos (by rw [hbefore]; rfl)]
  show Text.withoutEnd ".ts" (m ++ ".ts") = m
  rw [Text.withoutEnd, hbefore, Option.getD_some]

/-- A module path names the file that is generated for a module exactly if it is the path of this
module. -/
theorem Path.isSelf_append_ts {m own : String} (h : Text.after? localMark own = none)
    (extensions : List String) :
    isSelf (localMark ++ m) (own ++ ".ts") (".ts" :: extensions) = true ↔ m = own := by
  rw [isSelf, Text.after?_eq_some_iff.2 rfl, moduleOf_append_ts h, beq_iff_eq, Option.some.injEq]

/-! ## Requests -/

/-- A reference of a generated file to a name in a local module leads to a declaration: in the file
itself, which is recognised by its default extensions, or in another generated file. -/
structure FileModel.Resolves (models : List FileModel) (model : FileModel) (m name : String) :
    Prop where
  /-- The module is recognised as that of the file itself exactly if the file is where the module
  is. -/
  isSelf_iff :
    Path.isSelf (Path.localMark ++ m) model.path ({} : AssemblyConfig).extensions = true ↔
      model.path = m ++ ".ts"
  /-- In the file itself the name is declared. -/
  own : model.path = m ++ ".ts" → model.Exports name
  /-- Another module is a generated file that exports the name. -/
  other : model.path ≠ m ++ ".ts" → ∃ f ∈ models, f.path = m ++ ".ts" ∧ f.Exports name

namespace Plugin

/-- If no file is singled out, a file is generated for each file of a request. -/
theorem mapM_file_of_generated {config : Config} {r : Request} {models : List FileModel}
    (hall : r.wanted = []) (h : generated config r = .ok models) :
    r.files.mapM (Generation.file (TypeMap.ofFiles r.files) (requestOptions config r)) =
      .ok models := by
  have htargets : targets r = r.files := by
    rw [targets, hall]
    exact List.filter_eq_self.2 fun f hf => rfl
  rwa [generated, htargets] at h

section Requests

variable {config : Config} {r : Request} {models : List FileModel}

/-- The symbols of a generated file are collected, and those from local modules lead to
declarations. -/
theorem exists_collect_resolves (hall : r.wanted = [])
    (hdistinct : (r.files.map fun f => moduleName f.name).Nodup)
    (hplain : ∀ f ∈ r.files, Text.after? Path.localMark (moduleName f.name) = none)
    (hkeeps : KeepsEntries r.files) (h : generated config r = .ok models) {model : FileModel}
    (hmodel : model ∈ models) :
    ∃ typed code, collect model.members = .ok typed ∧ collectCode model.members = .ok code ∧
      ∀ s ∈ typed ++ code, ∀ m, s.module = Path.localMark ++ m →
        model.Resolves models m s.name := by
  have hfiles := mapM_file_of_generated hall h
  obtain ⟨f, hf, hfile⟩ := Fault.exists_of_mem_results hfiles hmodel
  obtain ⟨inner, services, hfrom⟩ := Generation.exists_generatedFrom hfile
  have hpath : model.path = moduleName f.name ++ ".ts" := hfrom.path_eq
  obtain ⟨typed, code, htyped, hcode, hlinked⟩ := Generation.exists_collect hkeeps hf hfile
  refine ⟨typed, code, htyped, hcode, ?_⟩
  intro s hs m hm
  obtain ⟨g, hg, rfl, hexports⟩ := Generation.exists_exports_of_isLinked hkeeps (hlinked s hs) hm
  have hself : Path.isSelf (Path.localMark ++ moduleName g.name) model.path
      ({} : AssemblyConfig).extensions = true ↔ moduleName g.name = moduleName f.name := by
    rw [hpath]
    exact Path.isSelf_append_ts (hplain f hf) [".tsx"]
  have hwhere : model.path = moduleName g.name ++ ".ts" ↔
      moduleName g.name = moduleName f.name := by
    rw [hpath, String.append_left_inj]
    exact eq_comm
  refine ⟨hself.trans hwhere.symm, fun hown => ?_, fun _ => ?_⟩
  · have hsame : g = f := List.inj_on_of_nodup_map hdistinct hg hf (hwhere.1 hown)
    exact hexports _ _ model (hsame ▸ hfile)
  · obtain ⟨other, hother, hgenerated⟩ := Fault.exists_result_of_mem hfiles hg
    obtain ⟨_, _, hotherFrom⟩ := Generation.exists_generatedFrom hgenerated
    exact ⟨other, hother, hotherFrom.path_eq, hexports _ _ other hgenerated⟩

/-- Suppose that a request singles out no file, that its files have different modules, none of which
starts with `./`, and that map entries have nothing in them and are only used by the message around
them. If all files can be generated, their symbols can be collected, and each of them that is local
leads to a declaration that is written with `export`: in the file itself, which is then recognised,
or in another generated file. So every local import of an assembled file is from another generated
file, which exports it. Full names need not differ. -/
theorem generated_resolves (hall : r.wanted = [])
    (hdistinct : (r.files.map fun f => moduleName f.name).Nodup)
    (hplain : ∀ f ∈ r.files, Text.after? Path.localMark (moduleName f.name) = none)
    (hkeeps : KeepsEntries r.files) (h : generated config r = .ok models) :
    ∀ model ∈ models,
      (∃ typed code, collect model.members = .ok typed ∧ collectCode model.members = .ok code ∧
        ∀ s ∈ typed ++ code, ∀ m, s.module = Path.localMark ++ m →
          model.Resolves models m s.name) ∧
      ∀ (assembly : AssemblyConfig) (loader : MetadataLoader) (file : AssembledFile),
        assembly.extensions = ({} : AssemblyConfig).extensions →
        assemble assembly loader model = .ok file →
        ∀ i ∈ file.imports, ∀ m, i.symbol.module = Path.localMark ++ m →
          ∃ f ∈ models, f.path = m ++ ".ts" ∧ f.path ≠ model.path ∧
            f.Exports i.symbol.name := by
  intro model hmodel
  obtain ⟨typed, code, htyped, hcode, hresolves⟩ :=
    exists_collect_resolves hall hdistinct hplain hkeeps h hmodel
  refine ⟨⟨typed, code, htyped, hcode, hresolves⟩, ?_⟩
  intro assembly loader file hextensions hassembled i hi m hm
  obtain ⟨typed', code', tokens, hfile⟩ := exists_assembledFrom hassembled
  obtain ⟨hmem, hforeign⟩ := hfile.collected_of_import hi
  have htyped' : typed' = typed := Except.ok.inj (hfile.typed_eq.symm.trans htyped)
  have hcode' : code' = code := Except.ok.inj (hfile.code_eq.symm.trans hcode)
  rw [htyped', hcode'] at hmem
  have hresolved := hresolves i.symbol hmem m hm
  -- What is imported is not recognised as the file's own.
  have hother : model.path ≠ m ++ ".ts" := by
    intro hown
    have hself := hresolved.isSelf_iff.2 hown
    have hnotself := (assembly.isForeign_naming_iff model.path i.symbol).1 hforeign
    rw [← hm, ← hextensions, hnotself] at hself
    cases hself
  obtain ⟨f, hf, hpath, hexports⟩ := hresolved.other hother
  exact ⟨f, hf, hpath, fun heq => hother (heq.symm.trans hpath), hexports⟩

end Requests

/-- A file with a map, an enumeration in a message and references to itself, and a file in another
directory that refers to it. -/
theorem generated_resolves_of_two_files :
    let part : Message :=
      { name := "Part", enums := [{ name := "Kind" }]
        fields := [{ name := "kind", type := .enumeration, typeName := ".shop.Item.Part.Kind" }] }
    let entry : Message :=
      { name := "PartsEntry", mapEntry := true
        fields := [
          { name := "key", type := .string },
          { name := "value", type := .message, typeName := ".shop.Item.Part" }] }
    let item : Message :=
      { name := "Item", nested := [part, entry]
        fields := [
          { name := "parts", label := .repeated, type := .message
            typeName := ".shop.Item.PartsEntry" }] }
    let sale : Message :=
      { name := "Sale"
        fields := [{ name := "kind", type := .enumeration, typeName := ".shop.Item.Part.Kind" }] }
    let r : Request :=
      { files := [
          { name := "shop.proto", package := "shop", messages := [item] },
          { name := "sales/day.proto", messages := [sale] }] }
    ∃ shop day, generated {} r = .ok [shop, day] ∧
      collect shop.members = .ok [⟨"Item_Part", "./shop"⟩, ⟨"Item_Part_Kind", "./shop"⟩] ∧
      shop.Resolves [shop, day] "shop" "Item_Part" ∧
      collect day.members = .ok [⟨"Item_Part_Kind", "./shop"⟩] ∧
      day.Resolves [shop, day] "shop" "Item_Part_Kind" := by
  intro part entry item sale r
  have hcollected : (generated {} r).map (fun models => models.map fun f => collect f.members) =
      .ok [.ok [⟨"Item_Part", "./shop"⟩, ⟨"Item_Part_Kind", "./shop"⟩],
        .ok [⟨"Item_Part_Kind", "./shop"⟩]] := by
    decide +kernel
  obtain ⟨models, hgenerated, hmodels⟩ := Fault.exists_of_map_eq_ok hcollected
  obtain ⟨shop, _, rfl, hshop, hrest⟩ := List.map_eq_cons_iff.1 hmodels
  obtain ⟨day, _, rfl, hday, hnone⟩ := List.map_eq_cons_iff.1 hrest
  obtain rfl := List.map_eq_nil_iff.1 hnone
  have hresolves := generated_resolves rfl (by decide +kernel) (by decide +kernel)
    (by decide +kernel) hgenerated
  obtain ⟨⟨typed, code, htyped, -, htypedResolves⟩, -⟩ := hresolves shop List.mem_cons_self
  obtain ⟨⟨typed', code', htyped', -, htypedResolves'⟩, -⟩ :=
    hresolves day (List.mem_cons_of_mem shop List.mem_cons_self)
  rw [hshop] at htyped
  rw [hday] at htyped'
  obtain rfl := Except.ok.inj htyped
  obtain rfl := Except.ok.inj htyped'
  exact ⟨shop, day, hgenerated, hshop, htypedResolves _ List.mem_cons_self "shop" (by decide),
    hday, htypedResolves' _ List.mem_cons_self "shop" (by decide)⟩

end Plugin

end ModuleAssembly
