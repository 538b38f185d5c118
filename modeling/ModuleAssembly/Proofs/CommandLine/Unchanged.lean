import ModuleAssembly.Proofs.CommandLine.Kept

/-!
# Calls that change no file

A call that assembles model files writes only after all of them are assembled. So if anything stands
in its way (`Command.Obstacle`), be it the last file of the last model file that cannot be
assembled, the call fails and no file or directory is created or changed (`run_unchanged`). There is
nothing else that keeps it from assembling the model files (`Command.obstacle_iff`). A call that
only shows the files changes none in any case.
-/

namespace ModuleAssembly

namespace ModelFile

/-- The values that the file models of a model file are read from. -/
def values (path text : String) : Except Failure (List Value) :=
  (document path text).bind entries

/-- The file models are read from the values one by one. -/
theorem load_eq (path text : String) :
    load path text = (values path text >>= fun vs => vs.mapM readModel) := by
  unfold load values
  cases document path text with
  | error failure => rfl
  | ok v => rfl

/-- A file model is read from a valid value. -/
theorem readModel_eq_ok_iff {v : Value} {f : FileModel} :
    readModel v = .ok f ↔ FileModel.ofValue v = .valid f := by
  unfold readModel
  cases FileModel.ofValue v with
  | valid g => simp
  | invalid issues => simp

/-- If a value gives no file model, it is not valid. -/
theorem exists_of_readModel_eq_error {v : Value} {failure : Failure}
    (h : readModel v = .error failure) : ∃ issues, FileModel.ofValue v = .invalid issues := by
  unfold readModel at h
  cases hv : FileModel.ofValue v with
  | valid g =>
    rw [hv] at h
    cases h
  | invalid issues => exact ⟨issues, rfl⟩

/-- A model file of no known kind has no values. -/
theorem values_of_kind?_eq_none {path : String} (h : kind? path = none) (text : String) :
    values path text = .error (.unsupported path) := by
  rw [values, document, h]
  rfl

end ModelFile

namespace CommandLine

/-- Only a call that ends well has the exit code zero. -/
theorem Status.exitCode_ne_zero {status : Status} (h : status ≠ .done) : status.exitCode ≠ 0 := by
  cases status with
  | done => exact absurd rfl h
  | failed | misused => decide

/-- A plan without files to write leaves the tree as it is. -/
theorem Plan.carryOut_of_writes_eq_nil {p : Plan} (h : p.writes = []) (tree : FileTree) :
    p.carryOut tree = ⟨p.status, tree, p.output⟩ := by
  rw [carryOut, h]
  rfl

/-- A call fails and leaves the tree as it was. -/
def Outcome.IsRefusal (o : Outcome) (tree : FileTree) : Prop :=
  o.status.exitCode ≠ 0 ∧ o.tree = tree

namespace Command

/-! ## What is loaded -/

/-- The file models of a model file come from the text of a file. -/
theorem exists_of_loadModels_eq_ok {read : Reader} {path : String} {files : List FileModel}
    (h : loadModels read path = .ok files) :
    ∃ text, read path = .found (.file text) ∧ ModelFile.load path text = .ok files := by
  unfold loadModels at h
  split at h
  · cases h
  · cases h
  · cases h
  · next text hread =>
    cases hload : ModelFile.load path text with
    | error failure =>
      rw [hload] at h
      cases h
    | ok files' =>
      rw [hload] at h
      cases h
      exact ⟨text, hread, hload⟩

/-- If file models are loaded, all values of the model file are valid. -/
theorem exists_values_of_loadModels_eq_ok {read : Reader} {path : String} {files : List FileModel}
    (h : loadModels read path = .ok files) :
    ∃ text values, read path = .found (.file text) ∧ ModelFile.values path text = .ok values ∧
      ∀ v ∈ values, ∃ f, FileModel.ofValue v = .valid f := by
  obtain ⟨text, hread, hload⟩ := exists_of_loadModels_eq_ok h
  rw [ModelFile.load_eq] at hload
  obtain ⟨values, hvalues, hmodels⟩ := Fault.exists_of_bind_eq_ok hload
  refine ⟨text, values, hread, hvalues, fun v hv => ?_⟩
  obtain ⟨f, -, hf⟩ := Fault.exists_result_of_mem hmodels hv
  exact ⟨f, ModelFile.readModel_eq_ok_iff.1 hf⟩

/-- If no file models are loaded, there is no file with a text, or the text has none. -/
theorem cases_of_loadModels_eq_error {read : Reader} {path : String} {status : Status}
    (h : loadModels read path = .error status) :
    (∀ text, read path ≠ .found (.file text)) ∨
      ∃ text failure, read path = .found (.file text) ∧
        ModelFile.load path text = .error failure := by
  unfold loadModels at h
  split at h
  · next hread => exact .inl (by simp [hread])
  · next hread => exact .inl (by simp [hread])
  · next hread => exact .inl (by simp [hread])
  · next text hread =>
    cases hload : ModelFile.load path text with
    | error failure => exact .inr ⟨text, failure, hread, hload⟩
    | ok files =>
      rw [hload] at h
      cases h

/-! ## Obstacles -/

/-- What keeps a call from assembling its model files, whichever of them it is about and whatever
else is in order. -/
inductive Obstacle (around : Surroundings) (models : List String) (config : Option String) :
    Prop where
  /-- The configuration cannot be loaded. -/
  | config {status : Status} (h : loadConfig around.read config = .error status)
  /-- A model file is not there, is a directory, or cannot be read. -/
  | unread {model : String} (hmodel : model ∈ models)
      (h : ∀ text, around.read model ≠ .found (.file text))
  /-- A model file is of no known kind. -/
  | unsupported {model : String} (hmodel : model ∈ models) (h : ModelFile.kind? model = none)
  /-- A model file is no document, or one that lists no file models. -/
  | malformed {model text : String} {failure : ModelFile.Failure} (hmodel : model ∈ models)
      (hread : around.read model = .found (.file text))
      (h : ModelFile.values model text = .error failure)
  /-- A value of a model file is no file model. -/
  | invalid {model text : String} {values : List Value} {v : Value} {issues : List Issue}
      (hmodel : model ∈ models) (hread : around.read model = .found (.file text))
      (hvalues : ModelFile.values model text = .ok values) (hv : v ∈ values)
      (h : FileModel.ofValue v = .invalid issues)
  /-- A file model of a model file cannot be assembled. -/
  | assembly {settings : Config} {model : String} {files : List FileModel} {f : FileModel}
      {fault : Fault} (hconfig : loadConfig around.read config = .ok settings)
      (hmodel : model ∈ models) (hfiles : loadModels around.read model = .ok files)
      (hf : f ∈ files)
      (h : ModuleAssembly.assemble { settings.assembly with base := around.base } .nothing f =
        .error fault)

variable {around : Surroundings} {models : List String} {config : Option String}

/-- Where something stands in the way, nothing is assembled. -/
theorem Obstacle.assembled_ne_ok (h : Obstacle around models config) (files : List AssembledFile) :
    assembled around models config ≠ .ok files := by
  intro hassembled
  obtain ⟨settings, loaded, hsettings, hloaded, hfiles⟩ := exists_of_assembled_eq_ok hassembled
  have hread : ∀ model ∈ models, ∃ text values, around.read model = .found (.file text) ∧
      ModelFile.values model text = .ok values ∧
      ∀ v ∈ values, ∃ f, FileModel.ofValue v = .valid f := by
    intro model hmodel
    obtain ⟨fs, -, hfs⟩ := Fault.exists_result_of_mem hloaded hmodel
    exact exists_values_of_loadModels_eq_ok hfs
  cases h with
  | config herror =>
    rw [hsettings] at herror
    cases herror
  | unread hmodel hnone =>
    obtain ⟨text, -, htext, -⟩ := hread _ hmodel
    exact hnone text htext
  | unsupported hmodel hkind =>
    obtain ⟨text, values, -, hvalues, -⟩ := hread _ hmodel
    rw [ModelFile.values_of_kind?_eq_none hkind] at hvalues
    cases hvalues
  | malformed hmodel htext herror =>
    obtain ⟨text, values, htext', hvalues, -⟩ := hread _ hmodel
    rw [htext] at htext'
    cases htext'
    rw [herror] at hvalues
    cases hvalues
  | invalid hmodel htext hvalues hv hinvalid =>
    obtain ⟨text, values, htext', hvalues', hall⟩ := hread _ hmodel
    rw [htext] at htext'
    cases htext'
    rw [hvalues] at hvalues'
    cases hvalues'
    obtain ⟨f, hvalid⟩ := hall _ hv
    rw [hinvalid] at hvalid
    cases hvalid
  | assembly hconfig hmodel hfs hf hfault =>
    rw [hsettings] at hconfig
    cases hconfig
    obtain ⟨fs, hmem, hfs'⟩ := Fault.exists_result_of_mem hloaded hmodel
    rw [hfs] at hfs'
    cases hfs'
    obtain ⟨file, -, hfile⟩ :=
      Fault.exists_result_of_mem hfiles (List.mem_flatten_of_mem hmem hf)
    rw [hfault] at hfile
    cases hfile

/-- If a model file cannot be loaded, something stands in the way. -/
theorem obstacle_of_loadModels_eq_error {model : String} {status : Status} (hmodel : model ∈ models)
    (h : loadModels around.read model = .error status) : Obstacle around models config := by
  rcases cases_of_loadModels_eq_error h with hnone | ⟨text, failure, hread, hload⟩
  · exact .unread hmodel hnone
  · rw [ModelFile.load_eq] at hload
    rcases Fault.cases_of_bind_eq_error hload with hvalues | ⟨values, hvalues, hmodels⟩
    · exact .malformed hmodel hread hvalues
    · obtain ⟨v, hv, herror⟩ := Fault.exists_of_mapM_eq_error hmodels
      obtain ⟨issues, hinvalid⟩ := ModelFile.exists_of_readModel_eq_error herror
      exact .invalid hmodel hread hvalues hv hinvalid

/-- Nothing is assembled exactly if something stands in the way. -/
theorem obstacle_iff : Obstacle around models config ↔
    ∃ status, status ≠ .done ∧ assembled around models config = .error status := by
  rcases assembled_cases around models config with
    ⟨status, hstatus, herror, hreason⟩ | ⟨-, -, files, -, -, -, hassembled⟩
  · refine iff_of_true ?_ ⟨status, hstatus, herror⟩
    rcases hreason with hconfig | ⟨model, hmodel, hload⟩ |
      ⟨settings, loaded, fault, hsettings, hloaded, hfault⟩
    · exact .config hconfig
    · exact obstacle_of_loadModels_eq_error hmodel hload
    · obtain ⟨f, hf, hfile⟩ := Fault.exists_of_mapM_eq_error hfault
      obtain ⟨fs, hfs, hmem⟩ := List.mem_flatten.1 hf
      obtain ⟨model, hmodel, hload⟩ := Fault.exists_of_mem_results hloaded hfs
      exact .assembly hsettings hmodel hload hmem hfile
  · refine iff_of_false (fun h => h.assembled_ne_ok files hassembled) ?_
    rintro ⟨status, -, herror⟩
    rw [hassembled] at herror
    cases herror

/-! ## What is written -/

/-- Files that are only shown are not written. -/
theorem writes_filesPlan_dryRun (output : String) (showRenames : Bool)
    (files : List AssembledFile) : (filesPlan output true showRenames files).writes = [] := by
  unfold filesPlan
  split
  · rfl
  · split
    · rfl
    · rfl

/-- If something stands in the way of a call, its plan is to fail. -/
theorem plan_of_obstacle (h : Obstacle around models config) (output : String)
    (workers : Option Int) (dryRun showRenames : Bool) :
    ∃ status, status ≠ .done ∧
      (Command.assemble models output config workers dryRun showRenames).plan around =
        .fail status := by
  obtain ⟨status, hstatus, herror⟩ := obstacle_iff.1 h
  refine ⟨status, hstatus, ?_⟩
  rw [plan, herror]

/-- A call that only shows the files writes none. -/
theorem writes_plan_dryRun (around : Surroundings) (models : List String) (output : String)
    (config : Option String) (workers : Option Int) (showRenames : Bool) :
    ((Command.assemble models output config workers true showRenames).plan around).writes = [] := by
  rw [plan]
  cases assembled around models config with
  | error status => rfl
  | ok files => exact writes_filesPlan_dryRun output showRenames files

end Command

/-- If anything stands in the way of a call that assembles model files, the call fails and leaves
all files as they were, also if reading gives something else than what the tree holds, as for a file
that cannot be read. A call that only shows the files leaves them as they were in any case. -/
theorem run_unchanged {args models : List String} {output : String} {config : Option String}
    {workers : Option Int} {dryRun showRenames : Bool}
    (hargs : Command.ofArguments args =
      some (.assemble models output config workers dryRun showRenames)) (tree : FileTree) :
    (∀ input, (Command.Obstacle (surroundings tree input) models config →
        (run tree input args).IsRefusal tree) ∧
      (dryRun = true → (run tree input args).tree = tree)) ∧
    ∀ around, (Command.Obstacle around models config →
        ((planOf around args).carryOut tree).IsRefusal tree) ∧
      (dryRun = true → ((planOf around args).carryOut tree).tree = tree) := by
  have hplan : ∀ around, planOf around args =
      (Command.assemble models output config workers dryRun showRenames).plan around := by
    intro around
    rw [planOf, hargs]
  have hall : ∀ around, (Command.Obstacle around models config →
        ((planOf around args).carryOut tree).IsRefusal tree) ∧
      (dryRun = true → ((planOf around args).carryOut tree).tree = tree) := by
    refine fun around => ⟨fun hobstacle => ?_, ?_⟩
    · obtain ⟨status, hstatus, hfail⟩ :=
        Command.plan_of_obstacle hobstacle output workers dryRun showRenames
      rw [hplan, hfail, Plan.carryOut_of_writes_eq_nil rfl]
      exact ⟨Status.exitCode_ne_zero hstatus, rfl⟩
    · rintro rfl
      rw [hplan, Plan.carryOut_of_writes_eq_nil (Command.writes_plan_dryRun ..)]
  exact ⟨fun input => hall (surroundings tree input), hall⟩

/-- Both file models of the second model file are loaded, but the second one cannot be assembled:
its code block has a reference without a name. Without that model file the files are shown. -/
theorem run_unchanged_of_last_file :
    let bad := "- path: j.ts\n- path: k.ts\n  members:\n" ++
      "  - kind: code_block\n    format: '%T'\n    args: ['@./log']\n"
    let tree := FileTree.ofFiles ["work"] [("a.yaml", "path: i.ts"), ("b.yaml", bad)]
    let args := ["assemble", "a.yaml", "b.yaml", "-o", "out", "-w", "4"]
    let shown := ["assemble", "a.yaml", "-o", "out", "--dry-run"]
    let loaded := Command.loadModels (surroundings tree []).read "b.yaml"
    loaded.toOption.map List.length = some 2 ∧ (run tree [] args).IsRefusal tree ∧
      (run tree [] shown).status = .done ∧ (run tree [] shown).tree = tree := by
  intro bad tree args shown loaded
  have hargs : Command.ofArguments args =
      some (.assemble ["a.yaml", "b.yaml"] "out" none (some 4) false false) := by decide +kernel
  have hshown : Command.ofArguments shown =
      some (.assemble ["a.yaml"] "out" none none true false) := by decide +kernel
  have hobstacle : Command.Obstacle (surroundings tree []) ["a.yaml", "b.yaml"] none :=
    Command.obstacle_iff.2 ⟨.failed, nofun, by decide +kernel⟩
  have hdone : (run tree [] shown).status = .done := by decide +kernel
  have hloaded : loaded.toOption.map List.length = some 2 := by decide +kernel
  exact ⟨hloaded, ((run_unchanged hargs tree).1 []).1 hobstacle, hdone,
    ((run_unchanged hshown tree).1 []).2 rfl⟩

end CommandLine

end ModuleAssembly
