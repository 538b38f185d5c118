import ModuleAssembly.Proofs.Resolution.Scan

/-!
# The merge of symbols that keep their names

`merge` adds the symbols of code blocks to the imports of a resolution. What it adds are the
newcomers (`Resolution.newcomers`): the foreign symbols that the resolution does not import yet,
each where it first occurs. They come after the imports that are there and have no alias
(`merge_imports`), so the renames of the resolution still agree with the imports
(`mergeUnrenamed_aligned`), although local names may be bound twice.
-/

namespace ModuleAssembly.Resolution

variable {rules : NamingRules} {path : String}

/-- The symbols that a resolution imports, in order. -/
def imported (r : Resolution) : List Symbol :=
  r.imports.map (·.symbol)

/-- The foreign symbols among those given that a resolution does not import, in order of first
occurrence. -/
def newcomers (rules : NamingRules) (path : String) (r : Resolution) (symbols : List Symbol) :
    List Symbol :=
  (rules.foreign path symbols).filter fun s => decide (s ∉ r.imported)

/-- A newcomer is a foreign symbol that occurs and is not imported. -/
theorem mem_newcomers {r : Resolution} {symbols : List Symbol} {s : Symbol} :
    s ∈ newcomers rules path r symbols ↔
      s ∈ symbols ∧ rules.isForeign path s = true ∧ s ∉ r.imported := by
  rw [newcomers, List.mem_filter, NamingRules.mem_foreign, decide_eq_true_iff, and_assoc]

/-- No newcomer is repeated. -/
theorem newcomers_nodup (r : Resolution) (symbols : List Symbol) :
    (newcomers rules path r symbols).Nodup :=
  (NamingRules.foreign_nodup symbols).filter _

/-- A symbol that has occurred, is of the file's own module or is imported is no newcomer. -/
theorem newcomers_concat_of_known {r : Resolution} {symbols : List Symbol} {s : Symbol}
    (h : s ∈ symbols ∨ rules.isForeign path s = false ∨ s ∈ r.imported) :
    newcomers rules path r (symbols ++ [s]) = newcomers rules path r symbols := by
  unfold newcomers
  by_cases hknown : s ∈ symbols ∨ rules.isForeign path s = false
  · rw [NamingRules.foreign_concat_of_mem_or_self hknown]
  · -- Here the symbol is a new foreign one, so it must be an import that the filter takes away.
    have hnew : s ∉ symbols := fun hs => hknown (.inl hs)
    have hforeign : rules.isForeign path s = true := by
      rw [← Bool.not_eq_false]
      exact fun hs => hknown (.inr hs)
    have himported : s ∈ r.imported := by
      rcases h with hs | hs | hs
      · exact absurd hs hnew
      · exact absurd (.inr hs) hknown
      · exact hs
    rw [NamingRules.foreign_concat_of_new hnew hforeign, List.filter_append]
    simp [himported]

/-- A foreign symbol that has not occurred and is not imported is the last newcomer. -/
theorem newcomers_concat_of_new {r : Resolution} {symbols : List Symbol} {s : Symbol}
    (hnew : s ∉ symbols) (hforeign : rules.isForeign path s = true) (hs : s ∉ r.imported) :
    newcomers rules path r (symbols ++ [s]) = newcomers rules path r symbols ++ [s] := by
  unfold newcomers
  rw [NamingRules.foreign_concat_of_new hnew hforeign, List.filter_append]
  simp [hs]

namespace Merge

/-- A symbol that is imported already, or is of the file's own module, changes nothing. -/
theorem step_of_known (m : Merge) {s : Symbol}
    (h : s ∈ m.imports.map (·.symbol) ∨ rules.isForeign path s = false) :
    step rules path m s = m := by
  have hknown : (m.imports.any (·.symbol == s) ||
      Path.isSelf s.module path rules.extensions) = true := by
    rw [Bool.or_eq_true]
    rcases h with h | h
    · obtain ⟨i, hi, hsymbol⟩ := List.mem_map.1 h
      exact .inl (List.any_eq_true.2 ⟨i, hi, by simpa using hsymbol⟩)
    · exact .inr (by simpa [NamingRules.isForeign] using h)
  unfold step
  rw [if_pos hknown]

/-- Any other symbol is imported under its own name. -/
theorem imports_step_of_new (m : Merge) {s : Symbol} (hs : s ∉ m.imports.map (·.symbol))
    (hforeign : rules.isForeign path s = true) :
    (step rules path m s).imports = m.imports ++ [⟨s, none⟩] := by
  have hnew : ¬(m.imports.any (·.symbol == s) ||
      Path.isSelf s.module path rules.extensions) = true := by
    rw [Bool.or_eq_true, not_or]
    constructor
    · intro h
      obtain ⟨i, hi, hsymbol⟩ := List.any_eq_true.1 h
      exact hs (List.mem_map.2 ⟨i, hi, by simpa using hsymbol⟩)
    · simpa [NamingRules.isForeign] using hforeign
  unfold step
  rw [if_neg hnew]
  -- The name may be taken, which only adds a notice.
  cases m.bound.lookup s.name with
  | none => rfl
  | some holder => rfl

end Merge

/-- One more symbol is one more step of the merge. -/
theorem merge_concat (rules : NamingRules) (path : String) (r : Resolution) (symbols : List Symbol)
    (s : Symbol) :
    merge rules path r (symbols ++ [s]) = Merge.step rules path (merge rules path r symbols) s := by
  simp [merge]

/-- The merge leaves the imports as they are and adds the newcomers under their own names. -/
theorem merge_imports (rules : NamingRules) (path : String) (r : Resolution)
    (symbols : List Symbol) :
    (merge rules path r symbols).imports =
      r.imports ++ (newcomers rules path r symbols).map fun s => ⟨s, none⟩ := by
  induction symbols using List.reverseRecOn with
  | nil => simp [merge, newcomers, NamingRules.foreign]
  | append_singleton symbols s ih =>
    have hsymbols : (merge rules path r symbols).imports.map (·.symbol) =
        r.imported ++ newcomers rules path r symbols := by
      rw [ih, List.map_append, List.map_map]
      simp [imported, Function.comp_def]
    rw [merge_concat]
    -- The step and the newcomers both ask whether the symbol is imported by now.
    by_cases hknown : s ∈ r.imported ++ newcomers rules path r symbols ∨
        rules.isForeign path s = false
    · have hold : s ∈ symbols ∨ rules.isForeign path s = false ∨ s ∈ r.imported := by
        rcases hknown with hs | hs
        · rcases List.mem_append.1 hs with hs | hs
          · exact .inr (.inr hs)
          · exact .inl (mem_newcomers.1 hs).1
        · exact .inr (.inl hs)
      rw [Merge.step_of_known _ (by rwa [hsymbols]), ih, newcomers_concat_of_known hold]
    · obtain ⟨hs, hforeign⟩ := not_or.1 hknown
      rw [Bool.not_eq_false] at hforeign
      have himported : s ∉ r.imported := fun h => hs (List.mem_append_left _ h)
      have hnew : s ∉ symbols := fun h =>
        hs (List.mem_append_right _ (mem_newcomers.2 ⟨h, hforeign, himported⟩))
      rw [Merge.imports_step_of_new _ (by rwa [hsymbols]) hforeign, ih,
        newcomers_concat_of_new hnew hforeign himported, List.map_append, List.append_assoc]
      rfl

/-- The symbols imported after the merge are those imported before and the newcomers. -/
theorem imported_mergeUnrenamed (rules : NamingRules) (path : String) (r : Resolution)
    (symbols : List Symbol) :
    (mergeUnrenamed rules path r symbols).imported =
      r.imported ++ newcomers rules path r symbols := by
  unfold imported mergeUnrenamed
  rw [merge_imports, List.map_append, List.map_map]
  simp [Function.comp_def]

/-- Every foreign symbol that is merged is imported afterwards. -/
theorem mem_imported_mergeUnrenamed {r : Resolution} {symbols : List Symbol} {s : Symbol}
    (hs : s ∈ symbols) (hforeign : rules.isForeign path s = true) :
    s ∈ (mergeUnrenamed rules path r symbols).imported := by
  rw [imported_mergeUnrenamed, List.mem_append]
  by_cases h : s ∈ r.imported
  · exact .inl h
  · exact .inr (mem_newcomers.2 ⟨hs, hforeign, h⟩)

/-- When some symbols have been resolved and others merged, the foreign ones among all of them are
imported. -/
theorem mem_imported_mergeUnrenamed_resolve {typed code : List Symbol} {s : Symbol} :
    s ∈ (mergeUnrenamed rules path (resolve rules path typed) code).imported ↔
      s ∈ typed ++ code ∧ rules.isForeign path s = true := by
  have hresolved : (resolve rules path typed).imported = rules.foreign path typed :=
    (scan_valid rules path typed).imported
  rw [imported_mergeUnrenamed, List.mem_append, mem_newcomers, hresolved, NamingRules.mem_foreign,
    List.mem_append]
  -- A merged symbol is imported whether or not it was before.
  by_cases hs : s ∈ typed
  · simp [hs]
  · simp [hs]

/-- The imports of a resolution stay when symbols are merged into it. -/
theorem imports_subset_mergeUnrenamed (r : Resolution) (symbols : List Symbol) :
    r.imports ⊆ (mergeUnrenamed rules path r symbols).imports := by
  intro i hi
  unfold mergeUnrenamed
  rw [merge_imports]
  exact List.mem_append_left _ hi

/-- After the merge, symbols are still imported once and the renames are still the imports that have
an alias. -/
theorem mergeUnrenamed_aligned {r : Resolution} (h : r.Aligned) (symbols : List Symbol) :
    (mergeUnrenamed rules path r symbols).Aligned where
  symbols_nodup := by
    have hnodup : (mergeUnrenamed rules path r symbols).imported.Nodup := by
      rw [imported_mergeUnrenamed]
      refine List.Nodup.append h.symbols_nodup (newcomers_nodup r symbols) ?_
      -- A newcomer was not imported before.
      intro s hs hnew
      exact (mem_newcomers.1 hnew).2.2 hs
    exact hnodup
  renamed := by
    have hnone : ((newcomers rules path r symbols).map fun s => (⟨s, none⟩ : Import)).filter
        (·.newName.isSome) = [] := by
      simp
    unfold mergeUnrenamed
    rw [merge_imports, List.filter_append, hnone, List.append_nil]
    exact h.renamed
  newName_ne := by
    intro i hi
    unfold mergeUnrenamed at hi
    rw [merge_imports] at hi
    rcases List.mem_append.1 hi with hi | hi
    · exact h.newName_ne i hi
    · obtain ⟨s, -, rfl⟩ := List.mem_map.1 hi
      exact fun hnone => by cases hnone

end ModuleAssembly.Resolution
