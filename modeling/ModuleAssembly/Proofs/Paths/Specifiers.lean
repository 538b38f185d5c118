import ModuleAssembly.Proofs.Assembly.Failure
import ModuleAssembly.Proofs.Paths.Segments

/-!
# Where specifiers lead

The way from one resolved path to another goes back to where they part and down again
(`Path.exists_relative_eq`), so it leads from the one to the other wherever both stand
(`Path.resolve_relative`). A specifier is such a way from the directory of a file to a module, with
a mark in front unless it starts with a step back, and the mark leads nowhere
(`Path.resolve_segments_marked`).

A path is clean if its segments are names (`Path.IsClean`). For a file and a module with clean paths
the specifier leads from the file to the module, so it leads to the file's own module exactly if the
module is recognised as the file itself, and then it is not imported (`Path.specifier_leads`).
-/

namespace ModuleAssembly.Path

/-! ## Relative ways -/

/-- The way from one path to another goes back from all that they do not share. -/
theorem exists_relative_eq (source target : List String) : ∃ shared up down,
    source = shared ++ up ∧ target = shared ++ down ∧
      relative source target = List.replicate up.length ".." ++ down := by
  fun_induction relative source target with
  | case1 source a target ih =>
    obtain ⟨shared, up, down, hsource, htarget, hway⟩ := ih
    exact ⟨a :: shared, up, down, congrArg _ hsource, congrArg _ htarget, hway⟩
  | case2 a source b target hne => exact ⟨[], a :: source, b :: target, rfl, rfl, rfl⟩
  | case3 source target hends => exact ⟨[], source, target, rfl, rfl, rfl⟩

/-- What two paths have in front does not change the way between them. -/
theorem relative_append (base source target : List String) :
    relative (base ++ source) (base ++ target) = relative source target := by
  induction base with
  | nil => rfl
  | cons name base ih =>
    rw [List.cons_append, List.cons_append, relative, if_pos rfl, ih]

/-- The way from one path to another leads there, if the other one goes on by names. -/
theorem resolve_relative (root source : List String) {target : List String}
    (h : ∀ name ∈ target, IsName name) :
    resolve (root ++ source) (relative source target) = root ++ target := by
  obtain ⟨shared, up, down, rfl, rfl, hway⟩ := exists_relative_eq source target
  have hdown : ∀ name ∈ down, IsName name :=
    fun name hname => h name (List.mem_append_right _ hname)
  rw [hway, resolve_append, ← List.append_assoc, resolve_back, resolve_names hdown,
    List.append_assoc]

/-- A way that is made of steps back and of segments of a path has no slash in its segments. -/
theorem not_mem_of_mem_relative {source target : List String}
    (h : ∀ name ∈ target, '/' ∉ name.toList) : ∀ name ∈ relative source target,
      '/' ∉ name.toList := by
  obtain ⟨shared, up, down, -, rfl, hway⟩ := exists_relative_eq source target
  rw [hway]
  intro name hname
  rcases List.mem_append.1 hname with hback | hdown
  · rw [List.eq_of_mem_replicate hback]
    decide
  · exact h name (List.mem_append_right _ hdown)

/-! ## The text of a way -/

/-- The text of a way leads where the way does. -/
theorem resolve_segments_joined {way : List String} (h : ∀ name ∈ way, '/' ∉ name.toList)
    (base : List String) : resolve base (segments (joined way)) = resolve base way := by
  unfold joined
  by_cases hway : way = []
  · rw [hway]
    rfl
  · rw [if_neg (by simpa using hway), segments_intercalate hway h]

/-- The text of a way as it stands in an import. -/
def marked (way : List String) : String :=
  if (Text.after? "../" (joined way)).isSome then joined way else localMark ++ joined way

/-- It starts with the mark or with a step back. -/
theorem starts_marked (way : List String) :
    (Text.after? localMark (marked way)).isSome = true ∨
      (Text.after? "../" (marked way)).isSome = true := by
  unfold marked
  split
  · next hback => exact .inr hback
  · exact .inl (by rw [Text.after?_eq_some_iff.2 rfl]; rfl)

/-- It leads where the way does. -/
theorem resolve_segments_marked {way : List String} (h : ∀ name ∈ way, '/' ∉ name.toList)
    (base : List String) : resolve base (segments (marked way)) = resolve base way := by
  unfold marked
  split
  · exact resolve_segments_joined h base
  · have hmark : segments (localMark ++ joined way) = "." :: segments (joined way) :=
      segments_name_append "." (by decide) (joined way)
    rw [hmark, ← resolve_segments_joined h]
    rfl

/-! ## Clean paths -/

/-- Whether all segments of a path are names. -/
def IsClean (path : String) : Prop :=
  ∀ segment ∈ segments path, IsName segment

instance (path : String) : Decidable (IsClean path) :=
  inferInstanceAs (Decidable (∀ segment ∈ segments path, IsName segment))

namespace IsClean

variable {path : String}

/-- A clean path does not start at the root. -/
theorem after?_root (h : IsClean path) : Text.after? "/" path = none := by
  cases hafter : Text.after? "/" path with
  | none => rfl
  | some rest =>
    have hsegments : segments path = "" :: segments rest := by
      rw [Text.after?_eq_some_iff.1 hafter]
      exact segments_name_append "" (by decide) rest
    exact absurd rfl (h "" (hsegments ▸ List.mem_cons_self)).1

/-- A clean path does not start with the mark of local modules. -/
theorem after?_localMark (h : IsClean path) : Text.after? localMark path = none := by
  cases hafter : Text.after? localMark path with
  | none => rfl
  | some rest =>
    have hsegments : segments path = "." :: segments rest := by
      rw [Text.after?_eq_some_iff.1 hafter]
      exact segments_name_append "." (by decide) rest
    exact absurd rfl (h "." (hsegments ▸ List.mem_cons_self)).2.1

/-- A clean path leads on by its segments. -/
theorem resolve_segments (h : IsClean path) (base : List String) :
    resolve (origin base path) (segments path) = base ++ segments path := by
  rw [origin, h.after?_root, Option.isSome_none, if_neg Bool.false_ne_true, resolve_names h]

end IsClean

/-- The path of a file: a clean path, perhaps after the mark. -/
def IsFilePath (file : String) : Prop :=
  ∃ path, IsClean path ∧ (file = path ∨ file = localMark ++ path)

/-- The directory of a file by its segments. -/
def folder (file : String) : List String :=
  (segments (Text.withoutStart localMark file)).dropLast

/-- A file is in its directory wherever the generated files are. -/
theorem IsFilePath.directory_eq {file : String} (h : IsFilePath file) (root : List String) :
    directory root file = root ++ folder file := by
  obtain ⟨path, hpath, hfile⟩ := h
  have hwithout : Text.withoutStart localMark file = path := by
    rcases hfile with rfl | rfl
    · rw [Text.withoutStart, hpath.after?_localMark, Option.getD_none]
    · rw [Text.withoutStart, Text.after?_eq_some_iff.2 rfl, Option.getD_some]
  have hnames : ∀ name ∈ (segments path).dropLast, IsName name :=
    fun name hname => hpath name (List.dropLast_subset _ hname)
  have hdirectory : directory root file = resolve (origin root path) (segments path).dropLast := by
    rw [← hwithout]
    rfl
  rw [hdirectory, folder, hwithout, origin, hpath.after?_root, Option.isSome_none,
    if_neg Bool.false_ne_true, resolve_names hnames]

/-- The components of what a specifier in a file leads to, if the generated files are in the
directory with the components `root`. -/
def target (root : List String) (file specifier : String) : List String :=
  resolve (directory root file) (segments specifier)

/-- The specifier of a module with a clean path is the way from the directory of the file. -/
theorem specifier_eq_marked {file module : String} (hfile : IsFilePath file)
    (hmodule : IsClean module) (base : List String) :
    specifier base (localMark ++ module) file =
      .ok (marked (relative (folder file) (segments module))) := by
  have hsome : module ≠ "" := by
    rintro rfl
    exact absurd rfl (hmodule "" List.mem_cons_self).1
  rw [specifier, Text.after?_eq_some_iff.2 rfl]
  dsimp only
  rw [if_neg hsome, hfile.directory_eq, hmodule.resolve_segments, relative_append]
  rfl

/-- It leads to the module. -/
theorem target_marked {file module : String} (hfile : IsFilePath file) (hmodule : IsClean module)
    (root : List String) :
    target root file (marked (relative (folder file) (segments module))) =
      root ++ segments module := by
  have hplain : ∀ name ∈ relative (folder file) (segments module), '/' ∉ name.toList :=
    not_mem_of_mem_relative fun _ hname => not_mem_of_mem_segments hname
  rw [target, hfile.directory_eq, resolve_segments_marked hplain, resolve_relative root _ hmodule]

/-- A module path is that of a file itself exactly if the module is the one that the file is known
by. -/
theorem isSelf_localMark_iff (module file : String) (extensions : List String) :
    isSelf (localMark ++ module) file extensions = true ↔ module = moduleOf file extensions := by
  rw [isSelf, Text.after?_eq_some_iff.2 rfl, beq_iff_eq, Option.some.injEq]

/-- A file and a module with clean paths have one specifier, which starts with the mark or with a
step back and leads from the file to the module, wherever the generated files are. So no other
module with a clean path has this specifier. It leads to the module that the file is known by
exactly if the module is recognised as the file itself, and no import of the file does. -/
theorem specifier_leads {file module : String} (hfile : IsFilePath file)
    (hmodule : IsClean module) :
    ∃ s, (∀ base, specifier base (localMark ++ module) file = .ok s) ∧
      ((Text.after? localMark s).isSome = true ∨ (Text.after? "../" s).isSome = true) ∧
      (∀ root, target root file s = root ++ segments module) ∧
      (∀ other base, IsClean other → specifier base (localMark ++ other) file = .ok s →
        other = module) ∧
      (∀ extensions, (∀ root, target root file s = root ++ segments (moduleOf file extensions)) ↔
        isSelf (localMark ++ module) file extensions = true) ∧
      ∀ (config : AssemblyConfig) (loader : MetadataLoader) (model : FileModel)
        (result : AssembledFile), model.path = file → assemble config loader model = .ok result →
          (∃ i ∈ result.imports, i.symbol.module = localMark ++ module) →
            ∀ root, target root file s ≠ root ++ segments (moduleOf file config.extensions) := by
  have htarget := target_marked hfile hmodule
  -- Where a module leads tells it apart from all others.
  have hown : ∀ root own,
      target root file (marked (relative (folder file) (segments module))) = root ++ segments own →
        module = own := by
    intro root own h
    rw [htarget, List.append_cancel_left_eq] at h
    exact segments_injective h
  refine ⟨_, specifier_eq_marked hfile hmodule, starts_marked _, htarget, ?_, ?_, ?_⟩
  · intro other base hother h
    rw [specifier_eq_marked hfile hother, Except.ok.injEq] at h
    refine (hown [] other ?_).symm
    rw [← h, target_marked hfile hother]
  · intro extensions
    rw [isSelf_localMark_iff]
    exact ⟨fun h => hown [] _ (h []), fun h root => by rw [htarget, ← h]⟩
  · rintro config loader model result rfl hresult ⟨i, hi, hsymbol⟩ root h
    obtain ⟨typed, code, tokens, hfrom⟩ := exists_assembledFrom hresult
    have hforeign := hfrom.isSelf_of_mem_imports hi
    rw [hsymbol] at hforeign
    have hself := (isSelf_localMark_iff module model.path config.extensions).2 (hown root _ h)
    exact Bool.false_ne_true (hforeign.symm.trans hself)

/-- A file in a directory, the module of the directory above, and the module of the file itself. -/
theorem specifier_leads_of_directory_above :
    let file := "./a/b/c.ts"
    specifier [] "./a" file = .ok "./.." ∧ (∀ root, target root file "./.." = root ++ ["a"]) ∧
      specifier [] "./a/b/c" file = .ok "./c" ∧ isSelf "./a/b/c" file [".ts"] = true ∧
        ∀ root, target root file "./c" = root ++ segments (moduleOf file [".ts"]) := by
  intro file
  have hfile : IsFilePath file := ⟨"a/b/c.ts", by decide, .inr rfl⟩
  have hparent : IsClean "a" := by decide
  have hmodule : IsClean "a/b/c" := by decide
  obtain ⟨above, habove, -, htarget, -⟩ := specifier_leads hfile hparent
  obtain ⟨own, hown, -, -, -, hself, -⟩ := specifier_leads hfile hmodule
  have habove' : specifier [] "./a" file = .ok "./.." := by decide +kernel
  have hown' : specifier [] "./a/b/c" file = .ok "./c" := by decide +kernel
  have hisSelf : isSelf "./a/b/c" file [".ts"] = true := by decide +kernel
  cases (habove []).symm.trans habove'
  cases (hown []).symm.trans hown'
  exact ⟨habove', htarget, hown', hisSelf, (hself [".ts"]).2 hisSelf⟩

end ModuleAssembly.Path
