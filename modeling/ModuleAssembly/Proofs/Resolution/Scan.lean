import ModuleAssembly.Proofs.Resolution.Coherent

/-!
# The scan of symbols

The scan that names the symbols of a file keeps a resolution that is coherent. The invariant that
carries this (`Scan.Valid`) says in addition that the scan's local names are those of its imports,
in their order, so that a look-up among them finds an import. One lemma for each branch of a step
(`Valid.skip_met`, `Valid.skip_self`, `Valid.keep`, `Valid.rename`) gives the step (`Valid.step`)
and, by induction over the symbols, the scan (`scan_valid`).
-/

namespace ModuleAssembly

namespace SeenNames

/-- A name that is not taken is given at the end. -/
theorem bound_bind (s : SeenNames) {name : String} (symbol : Symbol) (h : name ∉ s.names) :
    (s.bind name symbol).bound = s.bound ++ [(name, symbol)] := by
  have hfree : Association.contains s.bound name = false := by
    rw [← Bool.not_eq_true]
    exact fun hbound => h ((s.isBound_iff name).1 hbound)
  simp [bind, Association.insert, hfree]

/-- The next alias is a name that is not taken. -/
theorem nextAlias_not_mem (s : SeenNames) (name suffix : String) :
    (s.nextAlias name suffix).1 ∉ s.names :=
  (s.freeIndex_isLeast name suffix).1.2

end SeenNames

namespace Resolution

variable {rules : NamingRules} {path : String}

/-- What holds of the scan after some symbols. -/
structure Scan.Valid (rules : NamingRules) (path : String) (symbols : List Symbol) (s : Scan) :
    Prop where
  /-- The symbols met are those given. -/
  met : ∀ x, x ∈ s.met ↔ x ∈ symbols
  /-- The local names are those of the imports, in their order. -/
  bound : s.seen.bound = s.resolution.imports.map fun i => (i.localName, i.symbol)
  /-- The foreign symbols are imported. -/
  imported : s.resolution.imports.map (·.symbol) = rules.foreign path symbols
  /-- The resolution is coherent. -/
  coherent : s.resolution.Coherent

namespace Scan

/-- What a step may do: skip a symbol that was met, or one of the file's own module, import a
symbol under its name, or under an alias if the name has a holder. -/
theorem step_cases (rules : NamingRules) (path : String) (s : Scan) (x : Symbol) :
    (x ∈ s.met ∧ step rules path s x = s) ∨
      (x ∉ s.met ∧ rules.isForeign path x = false ∧
        step rules path s x = { s with met := x :: s.met }) ∨
      (x ∉ s.met ∧ rules.isForeign path x = true ∧ s.seen.holder? x.name = none ∧
        step rules path s x = keep { s with met := x :: s.met } x) ∨
      ∃ keeper, x ∉ s.met ∧ rules.isForeign path x = true ∧ s.seen.holder? x.name = some keeper ∧
        step rules path s x = rename rules.suffix { s with met := x :: s.met } x keeper := by
  by_cases hmet : x ∈ s.met
  · exact .inl ⟨hmet, by simp [step, hmet]⟩
  · refine .inr ?_
    cases hself : Path.isSelf x.module path rules.extensions with
    | true => exact .inl ⟨hmet, by simp [NamingRules.isForeign, hself], by simp [step, hmet, hself]⟩
    | false =>
      have hforeign : rules.isForeign path x = true := by simp [NamingRules.isForeign, hself]
      refine .inr ?_
      cases hholder : s.seen.holder? x.name with
      | none => exact .inl ⟨hmet, hforeign, rfl, by simp [step, hmet, hself, hholder]⟩
      | some keeper =>
        exact .inr ⟨keeper, hmet, hforeign, rfl, by simp [step, hmet, hself, hholder]⟩

namespace Valid

variable {symbols : List Symbol} {s : Scan} {x : Symbol}

/-- The names that are taken are the local names of the imports. -/
theorem names_eq (h : Valid rules path symbols s) :
    s.seen.names = s.resolution.imports.map Import.localName := by
  simp [SeenNames.names, h.bound]

/-- The holder of a name is the symbol of an import that binds it. -/
theorem exists_holder (h : Valid rules path symbols s) {name : String} {keeper : Symbol}
    (hholder : s.seen.holder? name = some keeper) :
    ∃ holder ∈ s.resolution.imports, holder.symbol = keeper ∧ holder.localName = name := by
  rw [SeenNames.holder?, h.bound] at hholder
  obtain ⟨before, after, hsplit, -⟩ := List.lookup_eq_some_iff.1 hholder
  have hpair : (name, keeper) ∈ s.resolution.imports.map fun i => (i.localName, i.symbol) := by
    rw [hsplit]
    exact List.mem_append_right _ List.mem_cons_self
  obtain ⟨holder, hmem, heq⟩ := List.mem_map.1 hpair
  simp only [Prod.mk.injEq] at heq
  exact ⟨holder, hmem, heq.2, heq.1⟩

/-- A symbol that was not met is not imported. -/
theorem not_imported (h : Valid rules path symbols s) (hmet : x ∉ s.met) :
    x ∉ s.resolution.imports.map (·.symbol) := by
  rw [h.imported, NamingRules.mem_foreign]
  exact fun hx => hmet ((h.met x).2 hx.1)

/-- The symbols met, with one more. -/
theorem mem_cons_met (h : Valid rules path symbols s) (y : Symbol) :
    y ∈ x :: s.met ↔ y ∈ symbols ++ [x] := by
  simp [h.met, or_comm]

/-- A symbol that was met may be skipped. -/
theorem skip_met (h : Valid rules path symbols s) (hmet : x ∈ s.met) :
    Valid rules path (symbols ++ [x]) s where
  met y := by
    have hx := (h.met x).1 hmet
    rw [h.met, List.mem_append, List.mem_singleton]
    exact ⟨.inl, fun hy => hy.elim id fun hyx => hyx ▸ hx⟩
  bound := h.bound
  imported := by
    rw [h.imported, NamingRules.foreign_concat_of_mem_or_self (.inl ((h.met x).1 hmet))]
  coherent := h.coherent

/-- A symbol of the file's own module may be skipped. -/
theorem skip_self (h : Valid rules path symbols s) (hself : rules.isForeign path x = false) :
    Valid rules path (symbols ++ [x]) { s with met := x :: s.met } where
  met := h.mem_cons_met
  bound := h.bound
  imported := by rw [h.imported, NamingRules.foreign_concat_of_mem_or_self (.inr hself)]
  coherent := h.coherent

/-- A new foreign symbol may keep its name, if that is not taken. -/
theorem keep (h : Valid rules path symbols s) (hmet : x ∉ s.met)
    (hforeign : rules.isForeign path x = true) (hname : x.name ∉ s.seen.names) :
    Valid rules path (symbols ++ [x]) (Scan.keep { s with met := x :: s.met } x) where
  met := h.mem_cons_met
  bound := by
    rw [Scan.keep, s.seen.bound_bind x hname, h.bound, List.map_append]
    rfl
  imported := by
    have hnew : x ∉ symbols := fun hx => hmet ((h.met x).2 hx)
    simp [Scan.keep, h.imported, NamingRules.foreign_concat_of_new hnew hforeign]
  coherent := h.coherent.concat_own (h.not_imported hmet) (h.names_eq ▸ hname)

/-- A new foreign symbol may get the next alias, if its name has a keeper. -/
theorem rename (h : Valid rules path symbols s) (hmet : x ∉ s.met)
    (hforeign : rules.isForeign path x = true) {keeper : Symbol}
    (hholder : s.seen.holder? x.name = some keeper) :
    Valid rules path (symbols ++ [x])
      (Scan.rename rules.suffix { s with met := x :: s.met } x keeper) := by
  have hfree : (s.seen.nextAlias x.name rules.suffix).1 ∉ s.seen.names :=
    s.seen.nextAlias_not_mem x.name rules.suffix
  have hne : (s.seen.nextAlias x.name rules.suffix).1 ≠ "" :=
    SeenNames.numbered_ne_empty x.name rules.suffix _
  have hbound : (s.seen.nextAlias x.name rules.suffix).2.bound = s.seen.bound := rfl
  -- Of the alias only these three facts count, so its number is forgotten.
  generalize hnext : s.seen.nextAlias x.name rules.suffix = next at hfree hne hbound
  obtain ⟨name, seen⟩ := next
  have hstep : Scan.rename rules.suffix { s with met := x :: s.met } x keeper =
      { met := x :: s.met
        seen := seen.bind name x
        resolution :=
          { renames := s.resolution.renames.add ⟨x, name, keeper⟩
            imports := s.resolution.imports ++ [Rename.asImport ⟨x, name, keeper⟩] }
        notices := s.notices ++ [.renamed x name keeper] } := by
    simp only [Scan.rename, hnext]
    rfl
  have hlocal : (Rename.asImport ⟨x, name, keeper⟩).localName = name :=
    Rename.localName_asImport _ hne
  rw [hstep]
  refine ⟨h.mem_cons_met, ?_, ?_, ?_⟩
  · have hnames : seen.names = s.seen.names := by rw [SeenNames.names, hbound, SeenNames.names]
    rw [seen.bound_bind x (hnames ▸ hfree), hbound, h.bound, List.map_append, List.map_singleton,
      hlocal]
    rfl
  · have hnew : x ∉ symbols := fun hx => hmet ((h.met x).2 hx)
    simp [h.imported, NamingRules.foreign_concat_of_new hnew hforeign, Rename.asImport]
  · exact h.coherent.concat_alias (h.not_imported hmet) hne (h.names_eq ▸ hfree)
      (h.exists_holder hholder)

/-- A step keeps what holds of the scan. -/
theorem step (h : Valid rules path symbols s) (x : Symbol) :
    Valid rules path (symbols ++ [x]) (Scan.step rules path s x) := by
  obtain ⟨hmet, hstep⟩ | ⟨-, hself, hstep⟩ | ⟨hmet, hforeign, hholder, hstep⟩ |
    ⟨keeper, hmet, hforeign, hholder, hstep⟩ := step_cases rules path s x
  · rw [hstep]; exact h.skip_met hmet
  · rw [hstep]; exact h.skip_self hself
  · rw [hstep]; exact h.keep hmet hforeign ((s.seen.holder?_eq_none_iff x.name).1 hholder)
  · rw [hstep]; exact h.rename hmet hforeign hholder

end Valid

end Scan

/-- One more symbol is one more step of the scan. -/
theorem scan_concat (rules : NamingRules) (path : String) (symbols : List Symbol) (x : Symbol) :
    scan rules path (symbols ++ [x]) = Scan.step rules path (scan rules path symbols) x := by
  simp [scan]

/-- What holds of the scan after all symbols of a file. -/
theorem scan_valid (rules : NamingRules) (path : String) (symbols : List Symbol) :
    Scan.Valid rules path symbols (scan rules path symbols) := by
  -- The scan goes on at the end of the list, so the induction takes the last symbol off.
  induction symbols using List.reverseRecOn with
  | nil => exact ⟨by simp [scan], rfl, rfl, ⟨⟨by simp [scan], rfl, by simp [scan]⟩, by simp [scan],
      by simp [scan]⟩⟩
  | append_singleton symbols x ih =>
    rw [scan_concat]
    exact ih.step x

/-- In a resolved file, local names and symbols are not repeated; the table of renames holds just
the symbols whose imports have an alias, with that alias; and the keeper of a renamed name is
another symbol, imported earlier under that name. -/
theorem resolve_coherent (rules : NamingRules) (path : String) (symbols : List Symbol) :
    let r := resolve rules path symbols
    (r.imports.map Import.localName).Nodup ∧ (r.imports.map (·.symbol)).Nodup ∧
      (∀ s, r.renames.contains s = true ↔ ∃ i ∈ r.imports, i.symbol = s ∧ i.newName.isSome) ∧
      (∀ i ∈ r.imports, r.renames.aliasOf? i.symbol = i.newName) ∧
      ∀ e ∈ r.renames.entries, e.keeper ≠ e.symbol ∧ ∃ holder : Import,
        holder.symbol = e.keeper ∧ holder.localName = e.symbol.name ∧
          [holder, ⟨e.symbol, some e.newName⟩].Sublist r.imports := by
  have h := (scan_valid rules path symbols).coherent
  exact ⟨h.localNames_nodup, h.symbols_nodup, h.contains_iff, fun i hi => h.aliasOf?_eq hi,
    fun e he => ⟨h.keeper_ne he, h.keeper_earlier e he⟩⟩

end Resolution

end ModuleAssembly
