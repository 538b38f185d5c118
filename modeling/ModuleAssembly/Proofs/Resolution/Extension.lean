import ModuleAssembly.Proofs.Resolution.Assignment

/-!
# More symbols

Names are given in the order in which symbols are first used, so further symbols at the end change
none that were given: the foreign symbols of a list are the first of those of a longer one
(`NamingRules.prefix_foreign`), and each is numbered by what stands before it
(`Numbered.prefix_assign`). Symbols of the file's own module and symbols that have occurred give out
no name, wherever they stand (`NamingRules.foreign_insert`).

The renames follow the imports. The keeper of a name is the one import that binds it, so of two
coherent resolutions, if the imports of one start those of the other, then so do its renames
(`Coherent.prefix_renames`).
-/

namespace ModuleAssembly

/-- A list whose image starts that of another one starts that one, if elements of the two with one
image are the same. -/
theorem prefix_of_prefix_map {α β : Type} {f : α → β} {as bs : List α}
    (h : as.map f <+: bs.map f) (hf : ∀ a ∈ as, ∀ b ∈ bs, f a = f b → a = b) : as <+: bs := by
  induction as generalizing bs with
  | nil => exact List.nil_prefix
  | cons a as ih =>
    cases bs with
    | nil => simp at h
    | cons b bs =>
      rw [List.map_cons, List.map_cons, List.cons_prefix_cons] at h
      obtain ⟨hab, hrest⟩ := h
      rw [List.cons_prefix_cons]
      exact ⟨hf a List.mem_cons_self b List.mem_cons_self hab, ih hrest fun a' ha' b' hb' =>
        hf a' (List.mem_cons_of_mem a ha') b' (List.mem_cons_of_mem b hb')⟩

namespace NamingRules

variable {rules : NamingRules} {path : String}

/-- The foreign symbols of a list come first among those of a longer one. -/
theorem prefix_foreign (rules : NamingRules) (path : String) (symbols others : List Symbol) :
    rules.foreign path symbols <+: rules.foreign path (symbols ++ others) := by
  unfold foreign
  rw [List.filter_append, List.eraseDups_append]
  exact List.prefix_append _ _

/-- A symbol that has occurred, or is of the file's own module, adds no foreign symbol, wherever it
stands. -/
theorem foreign_insert {symbols : List Symbol} {s : Symbol}
    (h : s ∈ symbols ∨ rules.isForeign path s = false) (others : List Symbol) :
    rules.foreign path (symbols ++ s :: others) = rules.foreign path (symbols ++ others) := by
  unfold foreign
  rw [List.filter_append, List.filter_append]
  cases hs : rules.isForeign path s with
  | false => rw [List.filter_cons_of_neg (by simp [hs])]
  | true =>
    have hmem : s ∈ symbols.filter (rules.isForeign path) := by simp_all
    rw [List.filter_cons_of_pos hs, List.eraseDups_append, List.eraseDups_append]
    generalize symbols.filter (rules.isForeign path) = front at hmem
    generalize others.filter (rules.isForeign path) = rest
    -- What follows the first list comes without the symbols of it.
    have hremove : (s :: rest).removeAll front = rest.removeAll front := by
      simp [List.removeAll, hmem]
    rw [hremove]

end NamingRules

/-- Symbols are numbered in the same way whatever follows them. -/
theorem Numbered.prefix_assign (suffix : String) (symbols others : List Symbol) :
    assign suffix symbols <+: assign suffix (symbols ++ others) := by
  induction others using List.reverseRecOn with
  | nil => simp
  | append_singleton others s ih =>
    rw [← List.append_assoc, assign_concat]
    exact ih.trans (List.prefix_append _ _)

namespace Resolution

/-- Two renames of one symbol to one name, each in a coherent resolution, are the same if the
imports of one are among those of the other. -/
theorem Coherent.rename_eq {r r' : Resolution} (h : r.Coherent) (h' : r'.Coherent)
    (himports : r.imports ⊆ r'.imports) {e e' : Rename} (he : e ∈ r.renames.entries)
    (he' : e' ∈ r'.renames.entries) (heq : e.asImport = e'.asImport) : e = e' := by
  obtain ⟨symbol, newName, keeper⟩ := e
  obtain ⟨symbol', newName', keeper'⟩ := e'
  simp only [Rename.asImport, Import.mk.injEq, Option.some.injEq] at heq
  obtain ⟨rfl, rfl⟩ := heq
  obtain ⟨holder, hkeeper, hlocal, hsub⟩ := h.keeper_earlier _ he
  obtain ⟨holder', hkeeper', hlocal', hsub'⟩ := h'.keeper_earlier _ he'
  have hmem : holder ∈ r'.imports := himports (hsub.subset List.mem_cons_self)
  have hmem' : holder' ∈ r'.imports := hsub'.subset List.mem_cons_self
  -- Both keepers are bound to the name, and only one import binds it.
  have hholder : holder = holder' :=
    List.inj_on_of_nodup_map h'.localNames_nodup hmem hmem' (hlocal.trans hlocal'.symm)
  have hkeepers : keeper = keeper' := by
    calc keeper = holder.symbol := hkeeper.symm
      _ = holder'.symbol := by rw [hholder]
      _ = keeper' := hkeeper'
  rw [hkeepers]

/-- If the imports of a coherent resolution start those of another one, then so do its renames. -/
theorem Coherent.prefix_renames {r r' : Resolution} (h : r.Coherent) (h' : r'.Coherent)
    (himports : r.imports <+: r'.imports) : r.renames.entries <+: r'.renames.entries := by
  refine prefix_of_prefix_map (f := Rename.asImport) ?_ fun e he e' he' heq =>
    h.rename_eq h' himports.subset he he' heq
  rw [h.renamed, h'.renamed]
  exact himports.filter _

/-- A coherent resolution is determined by its imports. -/
theorem Coherent.eq_of_imports_eq {r r' : Resolution} (h : r.Coherent) (h' : r'.Coherent)
    (himports : r.imports = r'.imports) : r = r' := by
  have hentries : r.renames.entries = r'.renames.entries := by
    refine (h.prefix_renames h' (himports ▸ List.prefix_rfl)).eq_of_length ?_
    have hlength := congrArg List.length (h.renamed.trans (himports ▸ h'.renamed.symm))
    simpa using hlength
  obtain ⟨⟨entries⟩, imports⟩ := r
  obtain ⟨⟨entries'⟩, imports'⟩ := r'
  simp only at himports hentries
  rw [himports, hentries]

variable {rules : NamingRules} {path : String}

/-- What is imported, and under which names, depends on the foreign symbols alone. -/
theorem imports_resolve (rules : NamingRules) (path : String) (symbols : List Symbol) :
    (resolve rules path symbols).imports =
      (Numbered.assign rules.suffix (rules.foreign path symbols)).map
        (Numbered.toImport rules.suffix) :=
  (scan_follows rules path symbols).imports

/-- The imports of some symbols come first among those of more symbols. -/
theorem prefix_imports_resolve (symbols others : List Symbol) :
    (resolve rules path symbols).imports <+: (resolve rules path (symbols ++ others)).imports := by
  obtain ⟨new, hnew⟩ := NamingRules.prefix_foreign rules path symbols others
  rw [imports_resolve, imports_resolve, ← hnew]
  exact (Numbered.prefix_assign rules.suffix _ new).map _

/-- The renames of some symbols come first among those of more symbols. -/
theorem prefix_renames_resolve (symbols others : List Symbol) :
    (resolve rules path symbols).renames.entries <+:
      (resolve rules path (symbols ++ others)).renames.entries :=
  Coherent.prefix_renames (scan_valid rules path _).coherent (scan_valid rules path _).coherent
    (prefix_imports_resolve symbols others)

/-- A symbol that has occurred, or is of the file's own module, changes nothing, wherever it
stands. -/
theorem resolve_insert {symbols : List Symbol} {s : Symbol}
    (h : s ∈ symbols ∨ rules.isForeign path s = false) (others : List Symbol) :
    resolve rules path (symbols ++ s :: others) = resolve rules path (symbols ++ others) := by
  refine Coherent.eq_of_imports_eq (scan_valid rules path _).coherent
    (scan_valid rules path _).coherent ?_
  have himports := imports_resolve rules path (symbols ++ s :: others)
  rw [NamingRules.foreign_insert h others, ← imports_resolve] at himports
  exact himports

end Resolution

end ModuleAssembly
