import Mathlib.Data.List.Induction
import ModuleAssembly.Proofs.Resolution.Numbering

/-!
# Coherent resolutions

A file imports its foreign symbols, those of other modules than its own, each where it first occurs
(`NamingRules.foreign`). In a resolution that is `Aligned`, no symbol is imported twice and the
renames are the imports that have an alias; it is `Coherent` if, besides, no local name is bound
twice and the keeper of a renamed name is an earlier import under that name. Importing one more
symbol under a free name keeps both (`Aligned.concat_own`, `Coherent.concat_own`,
`Coherent.concat_alias`).
-/

namespace ModuleAssembly

/-! ## First occurrences -/

/-- A new element comes last among the first occurrences, a repeated one changes nothing. -/
theorem eraseDups_concat {α : Type} [DecidableEq α] (xs : List α) (x : α) :
    (xs ++ [x]).eraseDups = if x ∈ xs then xs.eraseDups else xs.eraseDups ++ [x] := by
  rw [List.eraseDups_append]
  by_cases h : x ∈ xs
  · simp [List.removeAll, h]
  · simp [List.removeAll, h, List.eraseDups_cons]

/-- A list without repetition may be continued by an element whose value is new. -/
theorem nodup_map_concat {α β : Type} {f : α → β} {xs : List α} {x : α} (h : (xs.map f).Nodup)
    (hx : f x ∉ xs.map f) : ((xs ++ [x]).map f).Nodup := by
  rw [List.map_append, List.map_singleton, ← List.concat_eq_append]
  exact h.concat hx

/-- First occurrences are not repeated. -/
theorem eraseDups_nodup {α : Type} [DecidableEq α] (xs : List α) : xs.eraseDups.Nodup := by
  induction xs using List.reverseRecOn with
  | nil => simp
  | append_singleton xs x ih =>
    rw [eraseDups_concat]
    -- A repeated element is dropped, and a new one is not among the first occurrences.
    split
    · exact ih
    · next h =>
      rw [← List.map_id' xs.eraseDups] at ih
      simpa using nodup_map_concat ih (x := x) (by simpa using h)

/-! ## Foreign symbols -/

/-- Whether a symbol is of another module than a file's own. -/
def NamingRules.isForeign (rules : NamingRules) (path : String) (s : Symbol) : Bool :=
  !Path.isSelf s.module path rules.extensions

/-- The foreign symbols among those given, in order of first occurrence. -/
def NamingRules.foreign (rules : NamingRules) (path : String) (symbols : List Symbol) :
    List Symbol :=
  (symbols.filter (rules.isForeign path)).eraseDups

namespace NamingRules

variable {rules : NamingRules} {path : String}

/-- The foreign symbols are not repeated. -/
theorem foreign_nodup (symbols : List Symbol) : (rules.foreign path symbols).Nodup :=
  eraseDups_nodup _

/-- A symbol is among the foreign ones exactly if it occurs and is foreign. -/
theorem mem_foreign {symbols : List Symbol} {s : Symbol} :
    s ∈ rules.foreign path symbols ↔ s ∈ symbols ∧ rules.isForeign path s = true := by
  simp [foreign]

/-- A symbol that has occurred, or is of the file's own module, adds no foreign symbol. -/
theorem foreign_concat_of_mem_or_self {symbols : List Symbol} {s : Symbol}
    (h : s ∈ symbols ∨ rules.isForeign path s = false) :
    rules.foreign path (symbols ++ [s]) = rules.foreign path symbols := by
  unfold foreign
  rw [List.filter_append]
  cases hs : rules.isForeign path s with
  | false => simp [hs]
  | true =>
    have hmem : s ∈ symbols.filter (rules.isForeign path) := by simp_all
    rw [List.filter_cons_of_pos hs, List.filter_nil, eraseDups_concat, if_pos hmem]

/-- A foreign symbol that has not occurred comes last. -/
theorem foreign_concat_of_new {symbols : List Symbol} {s : Symbol} (hnew : s ∉ symbols)
    (hs : rules.isForeign path s = true) :
    rules.foreign path (symbols ++ [s]) = rules.foreign path symbols ++ [s] := by
  have hmem : s ∉ symbols.filter (rules.isForeign path) := by simp [hnew]
  unfold foreign
  rw [List.filter_append, List.filter_cons_of_pos hs, List.filter_nil, eraseDups_concat,
    if_neg hmem]

end NamingRules

/-! ## Renames and imports that agree -/

/-- The import of a renamed symbol. -/
def Rename.asImport (e : Rename) : Import :=
  ⟨e.symbol, some e.newName⟩

/-- An import of a renamed symbol binds its new name, unless that is empty. -/
theorem Rename.localName_asImport (e : Rename) (h : e.newName ≠ "") :
    e.asImport.localName = e.newName := by
  simp [asImport, Import.localName, Option.filter_some, h]

namespace Resolution

/-- Each symbol is imported once, and the renames are the imports that have an alias. -/
structure Aligned (r : Resolution) : Prop where
  /-- No symbol is imported twice. -/
  symbols_nodup : (r.imports.map (·.symbol)).Nodup
  /-- The renamed symbols, in order, are the imports with an alias. -/
  renamed : r.renames.entries.map Rename.asImport = r.imports.filter (·.newName.isSome)
  /-- No alias is empty. -/
  newName_ne : ∀ i ∈ r.imports, i.newName ≠ some ""

namespace Aligned

variable {r : Resolution}

/-- Imports of one symbol are one import. -/
theorem eq_of_symbol_eq (h : r.Aligned) {i j : Import} (hi : i ∈ r.imports) (hj : j ∈ r.imports)
    (hij : i.symbol = j.symbol) : i = j :=
  List.inj_on_of_nodup_map h.symbols_nodup hi hj hij

/-- A rename is the import of its symbol. -/
theorem asImport_mem (h : r.Aligned) {e : Rename} (he : e ∈ r.renames.entries) :
    e.asImport ∈ r.imports := by
  have hmem : e.asImport ∈ r.renames.entries.map Rename.asImport := List.mem_map_of_mem he
  rw [h.renamed] at hmem
  exact (List.mem_filter.1 hmem).1

/-- An import with an alias is that of a rename. -/
theorem exists_asImport_eq (h : r.Aligned) {i : Import} (hi : i ∈ r.imports)
    (halias : i.newName.isSome) : ∃ e ∈ r.renames.entries, e.asImport = i := by
  have hmem : i ∈ r.imports.filter (·.newName.isSome) := List.mem_filter.2 ⟨hi, halias⟩
  rw [← h.renamed] at hmem
  exact List.mem_map.1 hmem

/-- The table of renames gives the symbol of an import its alias, if it has one. -/
theorem aliasOf?_eq (h : r.Aligned) {i : Import} (hi : i ∈ r.imports) :
    r.renames.aliasOf? i.symbol = i.newName := by
  unfold RenameTable.aliasOf?
  cases hfind : r.renames.entries.find? (·.symbol == i.symbol) with
  | some e =>
    -- The rename that is found stands for an import of the symbol, and there is only one.
    have he := List.mem_of_find?_eq_some hfind
    have hsymbol : e.symbol = i.symbol := by simpa using List.find?_some hfind
    rw [← h.eq_of_symbol_eq (h.asImport_mem he) hi hsymbol]
    rfl
  | none =>
    cases hname : i.newName with
    | none => rfl
    | some name =>
      obtain ⟨e, he, rfl⟩ := h.exists_asImport_eq hi (by rw [hname]; rfl)
      have := List.find?_eq_none.1 hfind e he
      simp [Rename.asImport] at this

/-- A symbol has a rename exactly if its import has an alias. -/
theorem contains_iff (h : r.Aligned) (s : Symbol) :
    r.renames.contains s = true ↔ ∃ i ∈ r.imports, i.symbol = s ∧ i.newName.isSome := by
  simp only [RenameTable.contains, List.any_eq_true, beq_iff_eq]
  constructor
  · rintro ⟨e, he, rfl⟩
    exact ⟨e.asImport, h.asImport_mem he, rfl, rfl⟩
  · rintro ⟨i, hi, rfl, halias⟩
    obtain ⟨e, he, rfl⟩ := h.exists_asImport_eq hi halias
    exact ⟨e, he, rfl⟩

end Aligned

/-- A resolution in which, besides, no local name is bound twice, and the keeper of a renamed name
is imported earlier under that name. -/
structure Coherent (r : Resolution) : Prop extends r.Aligned where
  /-- No two imports bind one name. -/
  localNames_nodup : (r.imports.map Import.localName).Nodup
  /-- The keeper of a name is bound to it by an earlier import than the renamed symbol's. -/
  keeper_earlier : ∀ e ∈ r.renames.entries, ∃ holder : Import, holder.symbol = e.keeper ∧
    holder.localName = e.symbol.name ∧ [holder, e.asImport].Sublist r.imports

/-- The keeper of a name is not the renamed symbol. -/
theorem Coherent.keeper_ne {r : Resolution} (h : r.Coherent) {e : Rename}
    (he : e ∈ r.renames.entries) : e.keeper ≠ e.symbol := by
  obtain ⟨holder, hkeeper, -, hsub⟩ := h.keeper_earlier e he
  -- Two imports in a row of different symbols are not of one symbol.
  have hnodup := (hsub.map (·.symbol)).nodup h.symbols_nodup
  rw [← hkeeper]
  simpa [Rename.asImport] using hnodup

/-! ## Importing one more symbol -/

/-- A symbol that is not imported may be imported under its own name. -/
theorem Aligned.concat_own {r : Resolution} (h : r.Aligned) {s : Symbol}
    (hs : s ∉ r.imports.map (·.symbol)) :
    Aligned { r with imports := r.imports ++ [⟨s, none⟩] } where
  symbols_nodup := nodup_map_concat h.symbols_nodup hs
  renamed := by simpa using h.renamed
  newName_ne := by
    intro i hi
    rcases List.mem_append.1 hi with hi | hi
    · exact h.newName_ne i hi
    · simp [List.mem_singleton.1 hi]

/-- A symbol that is not imported may be imported under its own name, if no import binds that. -/
theorem Coherent.concat_own {r : Resolution} (h : r.Coherent) {s : Symbol}
    (hs : s ∉ r.imports.map (·.symbol)) (hname : s.name ∉ r.imports.map Import.localName) :
    Coherent { r with imports := r.imports ++ [⟨s, none⟩] } where
  toAligned := h.toAligned.concat_own hs
  localNames_nodup := nodup_map_concat h.localNames_nodup hname
  keeper_earlier := by
    intro e he
    obtain ⟨holder, hkeeper, hlocal, hsub⟩ := h.keeper_earlier e he
    exact ⟨holder, hkeeper, hlocal, hsub.trans (List.sublist_append_left _ _)⟩

/-- A symbol that is not imported may be imported under an alias that no import binds, if its own
name is kept by an import. -/
theorem Coherent.concat_alias {r : Resolution} (h : r.Coherent) {e : Rename}
    (hs : e.symbol ∉ r.imports.map (·.symbol)) (hne : e.newName ≠ "")
    (hname : e.newName ∉ r.imports.map Import.localName)
    (hkeeper : ∃ holder ∈ r.imports, holder.symbol = e.keeper ∧
      holder.localName = e.symbol.name) :
    Coherent ⟨r.renames.add e, r.imports ++ [e.asImport]⟩ := by
  have hlocal : e.asImport.localName = e.newName := e.localName_asImport hne
  -- A symbol that is not imported has no rename, so the new one is added at the end.
  have hcontains : r.renames.contains e.symbol = false := by
    rw [← Bool.not_eq_true, h.contains_iff]
    rintro ⟨i, hi, hsymbol, -⟩
    exact hs (List.mem_map.2 ⟨i, hi, hsymbol⟩)
  have hadd : (r.renames.add e).entries = r.renames.entries ++ [e] := by
    simp [RenameTable.add, hcontains]
  refine ⟨⟨?_, ?_, ?_⟩, ?_, ?_⟩
  · exact nodup_map_concat h.symbols_nodup hs
  · simp [hadd, h.renamed, Rename.asImport]
  · intro i hi
    rcases List.mem_append.1 hi with hi | hi
    · exact h.newName_ne i hi
    · simpa [List.mem_singleton.1 hi, Rename.asImport] using hne
  · exact nodup_map_concat h.localNames_nodup (by rwa [hlocal])
  · intro e' he'
    rw [hadd] at he'
    rcases List.mem_append.1 he' with he' | he'
    · obtain ⟨holder, hkeeper, hlocal, hsub⟩ := h.keeper_earlier e' he'
      exact ⟨holder, hkeeper, hlocal, hsub.trans (List.sublist_append_left _ _)⟩
    · rw [List.mem_singleton.1 he']
      obtain ⟨holder, hmem, hsymbol, hname⟩ := hkeeper
      exact ⟨holder, hsymbol, hname,
        (List.singleton_sublist.2 hmem).append (List.Sublist.refl [e.asImport])⟩

end Resolution

end ModuleAssembly
