import ModuleAssembly.CommandLine.Run
import ModuleAssembly.Proofs.Assembly.Names
import ModuleAssembly.Proofs.CommandLine.Places
import ModuleAssembly.Proofs.Results

/-!
# Files that are kept

A call that assembles model files and ends well leaves at the path of each file what was written
last to the place it leads to (`run_assemble_kept`). No file asks whether another one was written
there before, so all files are kept exactly if those that lead to one place have one content.
-/

namespace ModuleAssembly

namespace FileTree

/-- After several files were written, a path of them leads to what was written last to its place. -/
theorem WroteAll.lookUp {t t' : FileTree} {writes : List (TreePath × String)} {content : String}
    (h : t.WroteAll writes t') {w : TreePath × String} (hw : w ∈ writes)
    (hlast : t.lastTo (t.placeOf w.1) writes = some content) :
    t'.lookUp w.1 = .found (.file content) := by
  obtain ⟨hleads, hfits⟩ := h.leads w hw
  rw [← start_congr h.workingDirectory] at hleads
  rw [lookUp_eq hleads hfits, placeOf_congr h.workingDirectory, h.node?_of_lastTo _ _ hlast]
  rfl

end FileTree

namespace CommandLine

/-! ## Failures -/

/-- What has another reason to fail is no success. -/
theorem mapError_failed_ne {ε α : Type} (r : Except ε α) :
    r.mapError (fun _ => Status.failed) ≠ .error .done := by
  cases r with
  | error e => nofun
  | ok a => nofun

namespace Command

/-- A configuration that cannot be loaded is a failure. -/
theorem loadConfig_ne_done (read : Reader) (path : Option String) :
    loadConfig read path ≠ .error .done := by
  unfold loadConfig
  split
  · nofun
  · split
    · nofun
    · split
      · nofun
      · exact mapError_failed_ne _
      · nofun
      · exact mapError_failed_ne _

/-- So is a model file that cannot be loaded. -/
theorem loadModels_ne_done (read : Reader) (path : String) :
    loadModels read path ≠ .error .done := by
  unfold loadModels
  split
  · nofun
  · nofun
  · nofun
  · exact mapError_failed_ne _

/-- Nothing is assembled, and the call fails, if the configuration or a model file cannot be loaded
or the file models cannot be assembled. Otherwise all of this is done. -/
theorem assembled_cases (around : Surroundings) (models : List String) (config : Option String) :
    (∃ status, status ≠ .done ∧ assembled around models config = .error status ∧
      (loadConfig around.read config = .error status ∨
        (∃ model ∈ models, loadModels around.read model = .error status) ∨
        ∃ settings loaded fault, loadConfig around.read config = .ok settings ∧
          models.mapM (loadModels around.read) = .ok loaded ∧
          assembleAll { settings.assembly with base := around.base } .nothing loaded.flatten =
            .error fault)) ∨
      ∃ settings loaded files, loadConfig around.read config = .ok settings ∧
        models.mapM (loadModels around.read) = .ok loaded ∧
        assembleAll { settings.assembly with base := around.base } .nothing loaded.flatten =
          .ok files ∧ assembled around models config = .ok files := by
  unfold assembled
  cases hsettings : loadConfig around.read config with
  | error status =>
    refine .inl ⟨status, ?_, rfl, .inl rfl⟩
    rintro rfl
    exact loadConfig_ne_done _ _ hsettings
  | ok settings =>
    cases hloaded : models.mapM (loadModels around.read) with
    | error status =>
      obtain ⟨model, hmodel, herror⟩ := Fault.exists_of_mapM_eq_error hloaded
      refine .inl ⟨status, ?_, rfl, .inr (.inl ⟨model, hmodel, herror⟩)⟩
      rintro rfl
      exact loadModels_ne_done around.read model herror
    | ok loaded =>
      cases hfiles : assembleAll { settings.assembly with base := around.base } .nothing
        loaded.flatten with
      | error fault =>
        refine .inl ⟨.failed, nofun, ?_, .inr (.inr ⟨settings, loaded, fault, rfl, rfl, hfiles⟩)⟩
        simp only [bind, Except.bind, hfiles]
        rfl
      | ok files =>
        refine .inr ⟨settings, loaded, files, rfl, rfl, hfiles, ?_⟩
        simp only [bind, Except.bind, hfiles]
        rfl

/-- What is assembled comes from what is loaded. -/
theorem exists_of_assembled_eq_ok {around : Surroundings} {models : List String}
    {config : Option String} {files : List AssembledFile}
    (h : assembled around models config = .ok files) :
    ∃ settings loaded, loadConfig around.read config = .ok settings ∧
      models.mapM (loadModels around.read) = .ok loaded ∧
      assembleAll { settings.assembly with base := around.base } .nothing loaded.flatten =
        .ok files := by
  rcases assembled_cases around models config with
    ⟨status, -, herror, -⟩ | ⟨settings, loaded, files', hsettings, hloaded, hfiles, hassembled⟩
  · rw [herror] at h
    cases h
  · rw [hassembled] at h
    cases h
    exact ⟨settings, loaded, hsettings, hloaded, hfiles⟩

end Command

/-- If all of a plan goes well, everything that it writes is written. -/
theorem Plan.wroteAll_of_done {p : Plan} {tree : FileTree}
    (h : (p.carryOut tree).status = .done) :
    p.status = .done ∧ tree.WroteAll p.writes (p.carryOut tree).tree := by
  have hwrote := tree.wroteAll p.writes
  have hcarried : (tree.writeAll p.writes).2 = true → tree.carriedOut p.writes = p.writes :=
    FileTree.carriedOut_eq
  unfold carryOut at h ⊢
  generalize tree.writeAll p.writes = result at h hwrote hcarried
  obtain ⟨after, written⟩ := result
  cases written with
  | false => cases h
  | true => exact ⟨h, hcarried rfl ▸ hwrote⟩

/-- What is planned for assembled files that are not only shown is to write them, or to fail. -/
theorem Command.filesPlan_cases (output : String) (showRenames : Bool)
    (files : List AssembledFile) :
    (filesPlan output false showRenames files).status = .failed ∨
      (filesPlan output false showRenames files).writes =
        files.map fun f => (target output f.path, f.content) := by
  unfold filesPlan
  by_cases hempty : files.isEmpty = true
  · rw [if_pos hempty, List.isEmpty_iff.1 hempty]
    exact .inr rfl
  · rw [if_neg hempty]
    by_cases hrenames : (showRenames && !renamesPrintable files) = true
    · rw [if_pos hrenames]
      exact .inl rfl
    · rw [if_neg hrenames, if_neg (by simp)]
      exact .inr rfl

/-- What a call finds that runs on a tree of files. -/
def surroundings (tree : FileTree) (input : List UInt8) : Surroundings :=
  ⟨tree.workingDirectory, fun path => tree.lookUp (.ofText path), input⟩

/-- If a call that assembles model files ends well, what it assembled was written. -/
theorem exists_of_run_assemble {tree : FileTree} {input : List UInt8} {args models : List String}
    {output : String} {config : Option String} {workers : Option Int} {showRenames : Bool}
    (hargs : Command.ofArguments args =
      some (.assemble models output config workers false showRenames))
    (hdone : (run tree input args).status = .done) :
    ∃ files, Command.assembled (surroundings tree input) models config = .ok files ∧
      tree.WroteAll (files.map fun f => (Command.target output f.path, f.content))
        (run tree input args).tree := by
  have hrun : run tree input args = (Command.plan (surroundings tree input)
      (.assemble models output config workers false showRenames)).carryOut tree := by
    rw [run, planOf, surroundings, hargs]
  rw [hrun] at hdone ⊢
  unfold Command.plan at hdone ⊢
  rcases Command.assembled_cases (surroundings tree input) models config with
    ⟨status, hstatus, herror, -⟩ | ⟨-, -, files, -, -, -, hassembled⟩
  · simp only [herror] at hdone
    exact absurd hdone hstatus
  · refine ⟨files, hassembled, ?_⟩
    simp only [hassembled] at hdone ⊢
    obtain ⟨hstatus, hwrote⟩ := Plan.wroteAll_of_done hdone
    rcases Command.filesPlan_cases output showRenames files with hfailed | hwrites
    · rw [hfailed] at hstatus
      cases hstatus
    · rwa [hwrites] at hwrote

/-- What is written last to the place that a path leads to. -/
theorem lastTo_target (tree : FileTree) (output : String) (files : List AssembledFile)
    (place : Place) :
    tree.lastTo place (files.map fun f => (Command.target output f.path, f.content)) =
      (files.filter fun f => tree.placeOf (Command.target output f.path) = place).getLast?.map
        (·.content) := by
  rw [FileTree.lastTo, List.filter_map, List.getLast?_map, Option.map_map]
  rfl

/-- If a call that assembles model files ends well, every file model that it loads is assembled, and
the path of each file leads afterwards to the content of the last one that leads to the same place.
So all files are kept exactly if those that lead to one place have one content. -/
theorem run_assemble_kept {tree : FileTree} {input : List UInt8} {args models : List String}
    {output : String} {config : Option String} {workers : Option Int} {showRenames : Bool}
    (hargs : Command.ofArguments args =
      some (.assemble models output config workers false showRenames))
    (hdone : (run tree input args).status = .done) :
    let around := surroundings tree input
    let place (f : AssembledFile) := tree.placeOf (Command.target output f.path)
    let found (f : AssembledFile) :=
      (run tree input args).tree.lookUp (Command.target output f.path)
    ∃ settings loaded files, Command.loadConfig around.read config = .ok settings ∧
      models.mapM (Command.loadModels around.read) = .ok loaded ∧
      List.Forall₂ (fun model file => file.path = model.path ∧
        assemble { settings.assembly with base := around.base } .nothing model = .ok file)
          loaded.flatten files ∧
      Command.assembled around models config = .ok files ∧
      (∀ f ∈ files, ∃ last, (files.filter fun g => place g = place f).getLast? = some last ∧
        found f = .found (.file last.content)) ∧
      ((∀ f ∈ files, found f = .found (.file f.content)) ↔
        ∀ f ∈ files, ∀ g ∈ files, place f = place g → f.content = g.content) := by
  intro around place found
  obtain ⟨files, hassembled, hwrote⟩ := exists_of_run_assemble hargs hdone
  obtain ⟨settings, loaded, hsettings, hloaded, hfiles⟩ :=
    Command.exists_of_assembled_eq_ok hassembled
  have hlast : ∀ f ∈ files, ∃ last,
      (files.filter fun g => place g = place f).getLast? = some last ∧
        found f = .found (.file last.content) := by
    intro f hf
    have hmem : (Command.target output f.path, f.content) ∈
        files.map fun f => (Command.target output f.path, f.content) := List.mem_map_of_mem hf
    obtain ⟨content, hcontent⟩ := FileTree.exists_lastTo (t := tree) hmem
    have hfound := hwrote.lookUp hmem hcontent
    rw [lastTo_target] at hcontent
    obtain ⟨last, hlast, rfl⟩ := Option.map_eq_some_iff.1 hcontent
    exact ⟨last, hlast, hfound⟩
  have hresults : List.Forall₂ (fun model file => file.path = model.path ∧
      assemble { settings.assembly with base := around.base } .nothing model = .ok file)
        loaded.flatten files :=
    (Fault.forall₂_of_mapM_eq_ok hfiles).imp fun model file hfile =>
      ⟨path_of_assemble hfile, hfile⟩
  refine ⟨settings, loaded, files, hsettings, hloaded, hresults, hassembled, hlast, ?_, ?_⟩
  · -- Files of one place share the last one, and both are found as it.
    intro hall f hf g hg hplace
    obtain ⟨last, hf', hfoundf⟩ := hlast f hf
    obtain ⟨last', hg', hfoundg⟩ := hlast g hg
    rw [hplace, hg'] at hf'
    cases hf'
    have hsame : found f = found g := hfoundf.trans hfoundg.symm
    rw [hall f hf, hall g hg] at hsame
    exact Node.file.inj (Lookup.found.inj hsame)
  · intro hall f hf
    obtain ⟨last, hlast, hfound⟩ := hlast f hf
    obtain ⟨hmem, hplace⟩ := List.mem_filter.1 (List.mem_of_getLast? hlast)
    rw [hfound, hall f hf last hmem (of_decide_eq_true hplace).symm]

/-- Two model files for different paths. -/
theorem run_assemble_kept_of_two_paths :
    let tree := FileTree.ofFiles ["work"] [("a.yaml", "path: i.ts"), ("b.yaml", "path: j.ts")]
    let args := ["assemble", "a.yaml", "b.yaml", "-o", "out"]
    let first : AssembledFile := ⟨"i.ts", "", [], []⟩
    let second : AssembledFile := ⟨"j.ts", "", [], []⟩
    (run tree [] args).status = .done ∧ ∀ f ∈ [first, second],
      (run tree [] args).tree.lookUp (Command.target "out" f.path) = .found (.file f.content) := by
  intro tree args first second
  have hargs : Command.ofArguments args =
      some (.assemble ["a.yaml", "b.yaml"] "out" none none false false) := by decide +kernel
  have hdone : (run tree [] args).status = .done := by decide +kernel
  obtain ⟨settings, loaded, files, -, -, -, hassembled, -, hkept⟩ := run_assemble_kept hargs hdone
  have hboth : Command.assembled (surroundings tree []) ["a.yaml", "b.yaml"] none =
      .ok [first, second] := by decide +kernel
  have hfiles : files = [first, second] := Except.ok.inj (hassembled.symm.trans hboth)
  rw [hfiles] at hkept
  exact ⟨hdone, hkept.2 (by decide +kernel)⟩

/-- Of two model files for one path only the second one is kept. -/
theorem run_assemble_loses_shared_path :
    let tree := FileTree.ofFiles ["work"]
      [("a.yaml", "path: i.ts"), ("b.yaml", "path: i.ts\ncomment: b")]
    let args := ["assemble", "a.yaml", "b.yaml", "-o", "out"]
    let first : AssembledFile := ⟨"i.ts", "", [], []⟩
    let second : AssembledFile := ⟨"i.ts", "// b\n", [], []⟩
    Command.assembled (surroundings tree []) ["a.yaml", "b.yaml"] none =
        .ok [first, second] ∧
      (run tree [] args).status = .done ∧
      (run tree [] args).tree.lookUp (Command.target "out" first.path) =
        .found (.file second.content) ∧ first.content ≠ second.content := by
  decide +kernel

end CommandLine

end ModuleAssembly
