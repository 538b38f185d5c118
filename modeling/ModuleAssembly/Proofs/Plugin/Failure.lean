import ModuleAssembly.Proofs.Generation.Links
import ModuleAssembly.Proofs.Generation.Needs
import ModuleAssembly.Proofs.Generation.Printed
import ModuleAssembly.Proofs.Plugin.Encoding

/-!
# Requests that cannot be answered

A request whose files have modules with names, and whose map entries have a key and a value, cannot
be answered exactly if a file that is to be generated needs a name that no file declares; the fault
says which (`Plugin.respond_error_iff`). For once a file is generated, it is assembled as well: all
symbols that it uses are collected, none is of the path `./`, and all that it prints has a text
(`Generation.exists_assemble`). The plugin then fails and writes nothing; and otherwise, if what it
is to write is text (`Generation.Legible.areTexts`), it writes bytes that are read as the answer
(`Plugin.Response.decode?_encode`).
-/

namespace ModuleAssembly

open Descriptor (File Location Request)
open TypeMap (DeclaredType fullNames typesOf)

/-! ## Assembling generated files -/

namespace Generation

variable {types : TypeMap} {options : GenerationOptions} {f : File} {P : Symbol → Prop}

/-- The symbols of a generated file are collected: those of the packages that generated code uses,
and symbols that the type map knows. -/
theorem exists_collect_of_types
    (hpackages : ∀ s ∈ [utilSymbol, longSymbol, configureSymbol, observableSymbol], P s)
    (htypes : ∀ name s, types.find? name = some s → P s) {model : FileModel}
    (h : file types options f = .ok model) :
    ∃ typed code, collect model.members = .ok typed ∧ collectCode model.members = .ok code ∧
      ∀ s ∈ typed ++ code, P s := by
  obtain ⟨inner, services, hfrom⟩ := exists_generatedFrom h
  rw [List.forall_mem_cons, List.forall_mem_cons, List.forall_mem_cons,
    List.forall_mem_singleton] at hpackages
  obtain ⟨hutil, hlong, hconfigure, hobservable⟩ := hpackages
  have hinner : ∀ x ∈ inner, x.symbols.HoldsAll P := by
    intro x hx
    obtain ⟨d, -, hd⟩ := hfrom.exists_of_mem_inner hx
    exact holdsAll_declare hlong (fun m _ g _ => ⟨fun _ _ s hs => htypes _ s hs,
      fun _ _ value _ _ s hs => htypes _ s hs⟩) hd
  refine hfrom.exists_collect ?_ (hfrom.holdsAll_declarations hobservable hinner ?_)
  · rw [List.forall_mem_cons, List.forall_mem_cons, List.forall_mem_singleton]
    exact ⟨hutil, hlong, hconfigure⟩
  · rintro s - m - t (hinput | houtput)
    · exact htypes _ t hinput
    · exact htypes _ t houtput

/-- The symbols that the type map has for files whose modules have names are not of the path
`./`. -/
theorem module_ne_localMark {files : List File} (hmodules : ∀ g ∈ files, moduleName g.name ≠ "")
    {name : String} {s : Symbol} (h : (TypeMap.ofFiles files).find? name = some s) :
    s.module ≠ Path.localMark := by
  obtain ⟨g, hg, hentry⟩ := TypeMap.exists_of_find?_ofFiles h
  rw [TypeMap.module_of_mem_fileEntries hentry]
  intro hmark
  have hempty : Path.localMark ++ moduleName g.name = Path.localMark ++ "" := by
    rw [String.append_empty]
    exact hmark
  exact hmodules g hg (String.append_right_inj _ |>.1 hempty)

/-- A file that is generated is assembled. -/
theorem exists_assemble {files : List File} (hmodules : ∀ g ∈ files, moduleName g.name ≠ "")
    {model : FileModel} (h : file (TypeMap.ofFiles files) options f = .ok model)
    (config : AssemblyConfig) (loader : MetadataLoader) :
    ∃ result, assemble config loader model = .ok result := by
  obtain ⟨typed, code, htyped, hcode, hall⟩ := exists_collect_of_types
    (P := fun s => s.module ≠ Path.localMark) (by decide)
    (fun _ _ hs => module_ne_localMark hmodules hs) h
  -- What is imported was collected, so no import statement stops the file.
  have himported : ∀ i ∈ (Resolution.mergeUnrenamed config.naming model.path
      (Resolution.resolve config.naming model.path typed) code).imports,
      i.symbol.module ≠ Path.localMark := by
    intro i hi
    have hmem := Resolution.mem_imported_mergeUnrenamed_resolve.1 (List.mem_map_of_mem hi)
    exact hall i.symbol hmem.1
  obtain ⟨_, result, hresult⟩ :=
    FileModel.exists_assembledFrom_of_collected htyped hcode himported (ofPrinted_file h) loader
  exact ⟨result, hresult.assemble_eq⟩

/-! ## Texts -/

namespace Legible

/-- Whether the parameter of a request is a text, and the names and the comments in its files
are. -/
def areTexts (request : List Wire.FieldData) : Bool :=
  isRequestLegible request && (files request).all fun file =>
    isFileLegible file && (messagesAt 9 file).all fun info =>
      (messagesAt 1 info).all fun location => isText 3 location && isText 4 location

/-- Where comments are texts, those of all locations are. -/
theorem isText_of_mem_locations {file : List Wire.FieldData}
    (h : ∀ info ∈ messagesAt 9 file, ∀ location ∈ messagesAt 1 info,
      isText 3 location = true ∧ isText 4 location = true) :
    ∀ entry ∈ locations file, entry.2 = true := by
  intro entry hentry
  obtain ⟨info, hinfo, hmem⟩ := List.mem_flatMap.1 (List.mem_of_mem_filter hentry)
  obtain ⟨location, hlocation, rfl⟩ := List.mem_map.1 hmem
  obtain ⟨hleading, htrailing⟩ := h info hinfo location hlocation
  by_cases hempty : (Location.ofFields location).leading = ""
  · simp [hempty, htrailing]
  · simp [hempty, hleading]

end Legible

/-- What declarations have by their names is what the entries have. -/
theorem forall_byName {α : Type} {entries : List (List Int × α)} {Q : α → Prop}
    (hentries : ∀ entry ∈ entries, Q entry.2) {named : List (String × α)}
    (h : byName f entries = .ok named) : ∀ x ∈ named, Q x.2 := by
  refine Fault.foldlM_invariant (P := fun named : List (String × α) => ∀ x ∈ named, Q x.2) ?_
    (fun x hx => absurd hx List.not_mem_nil) h
  -- An entry comes in with what it has, or not at all.
  intro named hnamed entry hentry next hnext
  obtain ⟨name, -, hresult⟩ := Fault.exists_of_bind_eq_ok hnext
  cases name with
  | none =>
    rw [← Except.ok.inj hresult]
    exact hnamed
  | some name =>
    rw [← Except.ok.inj hresult, Association.insertNew]
    split
    · exact hnamed
    · intro x hx
      rcases List.mem_append.1 hx with hold | hnew
      · exact hnamed x hold
      · rw [List.mem_singleton.1 hnew]
        exact hentries entry hentry

/-- Where comments are texts, the documentation of a generated file is. -/
theorem Legible.isDocumentationLegible_of_comments {source : List Wire.FieldData}
    (h : ∀ entry ∈ locations source, entry.2 = true) (model : FileModel) :
    isDocumentationLegible source model = true := by
  unfold isDocumentationLegible
  dsimp only
  split
  · next marks hmarks =>
    have htrue : ∀ mark ∈ marks, mark.2 = true := by
      refine forall_byName (Q := fun legible => legible = true) (fun mark hmark => ?_) hmarks
      obtain ⟨entry, hentry, hcomment⟩ := List.mem_filterMap.1 hmark
      obtain ⟨comment, -, rfl⟩ := Option.map_eq_some_iff.1 hcomment
      exact h entry hentry
    refine List.all_eq_true.2 fun m _ => ?_
    cases m with
    | code b => rfl
    | declaration d =>
      -- A declaration without a comment has nothing that is no text.
      rw [Bool.or_eq_true]
      refine .inr ?_
      cases hlookup : marks.lookup d.name with
      | none => rfl
      | some legible => exact htrue _ (Association.mem_of_lookup hlookup)
  · rfl

end Generation

namespace Plugin

open Generation (Needs moduleName outputPath)
open Generation.Legible (areTexts)

variable {config : Config} {r : Request}

/-! ## Answers -/

/-- An answer has a file for each file that is to be generated, in order, where that goes. -/
theorem names_of_respond {a : Response} (h : respond config r = .ok a) :
    a.files.map (·.name) = (targets r).map outputPath := by
  obtain ⟨models, hmodels, hrest⟩ := Fault.exists_of_bind_eq_ok h
  obtain ⟨files, hfiles, ha⟩ := Fault.exists_of_bind_eq_ok hrest
  have hassembled : files.map (·.path) = models.map (·.path) :=
    Fault.map_eq_map_of_mapM hfiles fun _ _ hfile => path_of_assemble hfile
  have hgenerated : models.map (·.path) = (targets r).map outputPath :=
    Fault.map_eq_map_of_mapM hmodels fun _ _ hmodel => Generation.path_of_file hmodel
  rw [← Except.ok.inj ha, List.map_map, ← hgenerated, ← hassembled]
  rfl

/-- If all files can be generated, there is an answer. -/
theorem generated_eq_error (hmodules : ∀ f ∈ r.files, moduleName f.name ≠ "") {fault : Fault}
    (h : respond config r = .error fault) : generated config r = .error fault := by
  rcases Fault.cases_of_bind_eq_error h with hgenerated | ⟨models, hmodels, hrest⟩
  · exact hgenerated
  · -- Each file that was generated is assembled, whatever the comments are.
    rcases Fault.cases_of_bind_eq_error hrest with hassembled | ⟨files, -, hresult⟩
    · obtain ⟨model, hmodel, hfault⟩ := Fault.exists_of_mapM_eq_error hassembled
      obtain ⟨f, -, hfile⟩ := Fault.exists_of_mem_results hmodels hmodel
      obtain ⟨result, hok⟩ := Generation.exists_assemble hmodules hfile config.assembly
        (commentLoader (Association.ofList ((models.map (·.path)).zip (targets r))))
      rw [hfault] at hok
      cases hok
    · cases hresult

/-- A fault is that a file that is to be generated needs a name that no file declares. -/
theorem exists_needs_of_respond (hmodules : ∀ f ∈ r.files, moduleName f.name ≠ "")
    (hpairs : ∀ f ∈ r.files, ∀ d ∈ typesOf f, d.isPair = true) {fault : Fault}
    (h : respond config r = .error fault) :
    ∃ f ∈ targets r, ∃ name, Needs (requestOptions config r) f name ∧
      name ∉ fullNames r.files ∧ fault = .unknownType name := by
  obtain ⟨f, hf, hfile⟩ := Fault.exists_of_mapM_eq_error (generated_eq_error hmodules h)
  obtain ⟨name, hneeds, hnone, rfl⟩ :=
    Generation.unknown_of_file (hpairs f (List.mem_of_mem_filter hf)) hfile
  exact ⟨f, hf, name, hneeds, TypeMap.find?_ofFiles_eq_none.1 hnone, rfl⟩

/-- With an answer, files declare all names that are needed. -/
theorem mem_fullNames_of_respond {a : Response} (h : respond config r = .ok a) {f : File}
    (hf : f ∈ targets r) {name : String} (hneeds : Needs (requestOptions config r) f name) :
    name ∈ fullNames r.files := by
  obtain ⟨models, hmodels, -⟩ := Fault.exists_of_bind_eq_ok h
  obtain ⟨model, -, hfile⟩ := Fault.exists_result_of_mem hmodels hf
  by_contra hnot
  exact Generation.find?_ne_none_of_needs hfile hneeds (TypeMap.find?_ofFiles_eq_none.2 hnot)

/-! ## Runs -/

/-- If all texts of a request are texts, all that is written is text. -/
theorem isLegible_of_areTexts {fields : List Wire.FieldData} (h : areTexts fields = true)
    (config : Config) : isLegible config fields = true := by
  simp only [areTexts, Bool.and_eq_true, List.all_eq_true] at h
  obtain ⟨-, hfiles⟩ := h
  unfold isLegible
  dsimp only
  split
  · rfl
  · next models hmodels =>
    rw [Bool.and_eq_true, List.all_eq_true, List.all_eq_true]
    refine ⟨fun source hsource => (hfiles source (List.mem_of_mem_filter hsource)).1,
      fun model hmodel => ?_⟩
    rw [Option.all_eq_true]
    intro source hsource
    have hmem := (List.of_mem_zip (Association.mem_of_lookup_ofList hsource)).2
    exact Generation.Legible.isDocumentationLegible_of_comments
      (Generation.Legible.isText_of_mem_locations
        (hfiles source (List.mem_of_mem_filter hmem)).2) model

/-- A run on a request whose texts are texts ends with the answer, or with the fault that there is
instead. -/
theorem run_eq_outcome {input : List UInt8} {fields : List Wire.FieldData}
    (hread : Wire.read? .request input = some fields) (h : areTexts fields = true)
    (config : Config) :
    run config input = outcome ((respond config (requestOf fields)).mapError .fault) := by
  have hrequest : Generation.Legible.isRequestLegible fields = true := by
    rw [areTexts, Bool.and_eq_true] at h
    exact h.1
  have hlegible := isLegible_of_areTexts h config
  rw [run, answer, hread]
  simp only [hrequest, hlegible]
  cases respond config (requestOf fields) with
  | error fault => rfl
  | ok a => rfl

/-- A request whose files have modules with names, and whose map entries have a key and a value,
cannot be answered exactly if a file that is to be generated needs a name that is not the full name
of a type in any file; this is then the fault. An answer has a file for each file that is to be
generated. Run on the bytes of such a request, whose texts are texts, the plugin fails with the
fault, writes nothing and exits with one, or it writes bytes that are read as the answer and exits
with zero. -/
theorem respond_error_iff (hmodules : ∀ f ∈ r.files, moduleName f.name ≠ "")
    (hpairs : ∀ f ∈ r.files, ∀ d ∈ typesOf f, d.isPair = true) (config : Config) :
    ((∃ fault, respond config r = .error fault) ↔
        ∃ f ∈ targets r, ∃ name, Needs (requestOptions config r) f name ∧
          name ∉ fullNames r.files) ∧
      (∀ fault, respond config r = .error fault →
        ∃ f ∈ targets r, ∃ name, Needs (requestOptions config r) f name ∧
          name ∉ fullNames r.files ∧ fault = .unknownType name) ∧
      (∀ a, respond config r = .ok a → a.files.map (·.name) = (targets r).map outputPath) ∧
      ∀ input fields, Wire.read? .request input = some fields → requestOf fields = r →
        areTexts fields = true →
          (∀ fault, respond config r = .error fault →
            run config input = ⟨1, [], some (.fault fault)⟩) ∧
          ∀ a, respond config r = .ok a →
            run config input = ⟨0, a.encode, none⟩ ∧ Response.decode? a.encode = some a := by
  refine ⟨⟨?_, ?_⟩, fun fault h => exists_needs_of_respond hmodules hpairs h,
    fun a h => names_of_respond h, ?_⟩
  · rintro ⟨fault, h⟩
    obtain ⟨f, hf, name, hneeds, hname, -⟩ := exists_needs_of_respond hmodules hpairs h
    exact ⟨f, hf, name, hneeds, hname⟩
  · rintro ⟨f, hf, name, hneeds, hname⟩
    cases h : respond config r with
    | error fault => exact ⟨fault, rfl⟩
    | ok a => exact absurd (mem_fullNames_of_respond h hf hneeds) hname
  · rintro input fields hread rfl htexts
    have hrun := run_eq_outcome hread htexts config
    refine ⟨fun fault h => ?_, fun a h => ⟨?_, Response.decode?_encode a⟩⟩
    · rw [hrun, h]
      rfl
    · rw [hrun, h]
      rfl

/-- A file of a message with one field, in bytes: if no message has the name of the field's type,
the run fails, and if the message itself has it, the run writes one file. -/
theorem respond_error_iff_of_bytes :
    let input (typeName : String) : List UInt8 :=
      Wire.bytesField 15 (Wire.textField 1 "a.proto" ++ Wire.bytesField 4 (Wire.textField 1 "M" ++
        Wire.bytesField 2 (Wire.textField 1 "x" ++ Wire.varintField 5 11 ++
          Wire.textField 6 typeName)))
    run {} (input ".N") = ⟨1, [], some (.fault (.unknownType ".N"))⟩ ∧
      ∃ a : Response, run {} (input ".M") = ⟨0, a.encode, none⟩ ∧
        Response.decode? a.encode = some a ∧ a.files.map (·.name) = ["a.ts"] := by
  intro input
  let message (typeName : List UInt8) : List Wire.FieldData :=
    [(1, .bytes [77]), (2, .message [(1, .bytes [120]), (5, .varint 11), (6, .bytes typeName)])]
  let file (typeName : List UInt8) : List Wire.FieldData :=
    [(1, .bytes [97, 46, 112, 114, 111, 116, 111]), (4, .message (message typeName))]
  let fields (typeName : List UInt8) : List Wire.FieldData := [(15, .message (file typeName))]
  let request (typeName : String) : Request :=
    { files := [{ name := "a.proto", messages := [
        { name := "M", fields := [{ name := "x", type := .message, typeName }] }] }] }
  have htexts : ∀ typeName, areTexts (fields typeName) = true := by
    intro typeName
    have hmessages : Generation.Legible.areMessagesLegible 4 (file typeName) = true := by
      simp only [file, message, Generation.Legible.areMessagesLegible]
      rfl
    calc areTexts (fields typeName)
        = (Generation.Legible.areMessagesLegible 4 (file typeName) && true && true && true) := rfl
      _ = true := by rw [hmessages]; rfl
  have hrequest : ∀ typeName, requestOf (fields typeName) = request (Wire.shown typeName) := by
    intro typeName
    have hmessage : Descriptor.Message.putAll (message typeName) {} =
        { name := "M", fields := [
          { name := "x", type := .message, typeName := Wire.shown typeName }] } := by
      simp only [message, Descriptor.Message.putAll]
      rfl
    calc requestOf (fields typeName)
        = { files := [{ name := "a.proto", messages :=
            [Descriptor.Message.putAll (message typeName) {}] }] } := rfl
      _ = request (Wire.shown typeName) := by rw [hmessage]
  constructor
  · have hread : Wire.read? .request (input ".N") = some (fields [46, 78]) := rfl
    have hnamed : requestOf (fields [46, 78]) = request ".N" := hrequest _
    have hmodules : ∀ f ∈ (request ".N").files, moduleName f.name ≠ "" := by decide +kernel
    have hpairs : ∀ f ∈ (request ".N").files, ∀ d ∈ typesOf f, d.isPair = true := by
      decide +kernel
    have hfault : respond {} (request ".N") = .error (.unknownType ".N") := by decide +kernel
    obtain ⟨-, -, -, hrun⟩ := respond_error_iff hmodules hpairs {}
    exact (hrun _ _ hread hnamed (htexts _)).1 _ hfault
  · have hread : Wire.read? .request (input ".M") = some (fields [46, 77]) := rfl
    have hnamed : requestOf (fields [46, 77]) = request ".M" := hrequest _
    have hmodules : ∀ f ∈ (request ".M").files, moduleName f.name ≠ "" := by decide +kernel
    have hpairs : ∀ f ∈ (request ".M").files, ∀ d ∈ typesOf f, d.isPair = true := by
      decide +kernel
    have hanswer : (respond {} (request ".M")).map (fun a => a.files.map (·.name)) =
        .ok ["a.ts"] := by decide +kernel
    obtain ⟨a, ha, hnames⟩ := Fault.exists_of_map_eq_ok hanswer
    obtain ⟨-, -, -, hrun⟩ := respond_error_iff hmodules hpairs {}
    obtain ⟨hwritten, hreadBack⟩ := (hrun _ _ hread hnamed (htexts _)).2 a ha
    exact ⟨a, hwritten, hreadBack, hnames⟩

end Plugin

end ModuleAssembly
