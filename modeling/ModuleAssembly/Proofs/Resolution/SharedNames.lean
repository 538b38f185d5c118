import Mathlib.Data.List.TakeWhile
import ModuleAssembly.Proofs.Association
import ModuleAssembly.Proofs.Resolution.Merge

/-!
# Names that imports share

Merged symbols keep their names, so a name may be bound twice. Each time the merge reports it: for
every symbol it imports whose name an earlier import binds, with the first import that does
(`sharedNames`), and for no other. So a file whose local names are not repeated is one without such
a report.

The invariant that carries this (`Merge.Reports`) says that the merge knows the first import of
every local name, and what it has reported so far. A symbol that is known changes nothing, and one
lemma for each branch of a step that imports a symbol (`Reports.share`, `Reports.take`) gives the
step (`Reports.step`) and, by induction over the symbols, the merge (`merge_reports`).
-/

namespace ModuleAssembly.Resolution

/-- The symbol of the first import under a name. -/
def firstHolder? (imports : List Import) (name : String) : Option Symbol :=
  (imports.find? (·.localName == name)).map (·.symbol)

/-- The imports in front of that of a symbol. -/
def importsBefore (imports : List Import) (s : Symbol) : List Import :=
  imports.takeWhile (·.symbol != s)

/-- What is reported for symbols that are imported under their own names: each whose name is
bound by an earlier import, with the first one that does. -/
def sharedNames (path : String) (imports : List Import) (symbols : List Symbol) : List Notice :=
  symbols.filterMap fun s =>
    (firstHolder? (importsBefore imports s) s.name).map fun holder => .sharedName path s holder

/-- A name has no first import exactly if no import binds it. -/
theorem firstHolder?_eq_none_iff (imports : List Import) (name : String) :
    firstHolder? imports name = none ↔ name ∉ imports.map Import.localName := by
  simp only [firstHolder?, Option.map_eq_none_iff, List.find?_eq_none, beq_iff_eq, List.mem_map,
    not_exists, not_and]

/-- The first import under a name is found in the association of local names and symbols. -/
theorem firstHolder?_eq_lookup (imports : List Import) (name : String) :
    firstHolder? imports name = (imports.map fun i => (i.localName, i.symbol)).lookup name := by
  unfold firstHolder?
  induction imports with
  | nil => rfl
  | cons i imports ih =>
    rw [List.map_cons, List.lookup_cons, List.find?_cons, BEq.comm, ← ih]
    cases name == i.localName with
    | true => rfl
    | false => rfl

/-- One more import, under its own name, is the first under that name if there was none. -/
theorem firstHolder?_concat (imports : List Import) (s : Symbol) (name : String) :
    firstHolder? (imports ++ [⟨s, none⟩]) name =
      (firstHolder? imports name).or (if s.name = name then some s else none) := by
  have hlocal : (⟨s, none⟩ : Import).localName = s.name := rfl
  rw [firstHolder?, List.find?_append, Option.map_or, firstHolder?, List.find?_singleton, hlocal]
  by_cases h : s.name = name
  · simp [h]
  · simp [h]

/-- One more import does not come before that of a symbol that is imported. -/
theorem importsBefore_concat_of_mem {imports : List Import} {s : Symbol}
    (h : s ∈ imports.map (·.symbol)) (i : Import) :
    importsBefore (imports ++ [i]) s = importsBefore imports s := by
  obtain ⟨j, hj, rfl⟩ := List.mem_map.1 h
  unfold importsBefore
  rw [List.takeWhile_append, if_neg]
  -- Not all imports come before, since one of them is that of the symbol.
  intro hlength
  have hfront := List.takeWhile_prefix (l := imports) (·.symbol != j.symbol)
  have hall := List.takeWhile_eq_self_iff.1 (hfront.eq_of_length hlength) j hj
  simp at hall

/-- All imports come before that of a symbol that is imported last. -/
theorem importsBefore_concat_of_new {imports : List Import} {s : Symbol}
    (h : s ∉ imports.map (·.symbol)) :
    importsBefore (imports ++ [⟨s, none⟩]) s = imports := by
  have hall : imports.takeWhile (·.symbol != s) = imports := by
    rw [List.takeWhile_eq_self_iff]
    intro i hi
    have hne : i.symbol ≠ s := fun hs => h (List.mem_map.2 ⟨i, hi, hs⟩)
    simpa using hne
  unfold importsBefore
  rw [List.takeWhile_append, hall, if_pos rfl]
  simp

/-- What was reported stays reported when one more symbol is imported. -/
theorem sharedNames_concat_import (path : String) {imports : List Import} {symbols : List Symbol}
    (h : ∀ s ∈ symbols, s ∈ imports.map (·.symbol)) (i : Import) :
    sharedNames path (imports ++ [i]) symbols = sharedNames path imports symbols := by
  unfold sharedNames
  refine List.filterMap_congr fun s hs => ?_
  rw [importsBefore_concat_of_mem (h s hs)]

/-- A symbol that is imported last is reported if an import binds its name. -/
theorem sharedNames_concat {path : String} {imports : List Import} {symbols : List Symbol}
    {s : Symbol} (h : ∀ x ∈ symbols, x ∈ imports.map (·.symbol))
    (hs : s ∉ imports.map (·.symbol)) :
    sharedNames path (imports ++ [⟨s, none⟩]) (symbols ++ [s]) =
      sharedNames path imports symbols ++
        ((firstHolder? imports s.name).map fun holder => .sharedName path s holder).toList := by
  have hold := sharedNames_concat_import path h ⟨s, none⟩
  unfold sharedNames at hold ⊢
  rw [List.filterMap_append, hold, List.filterMap_cons, importsBefore_concat_of_new hs]
  cases firstHolder? imports s.name with
  | none => rfl
  | some holder => rfl

variable {rules : NamingRules} {path : String}

namespace Merge

/-- A symbol that is imported is added under its own name. If the name has a holder this is
reported, and else the symbol becomes its holder. -/
theorem step_of_new (m : Merge) {s : Symbol} (hs : s ∉ m.imports.map (·.symbol))
    (hforeign : rules.isForeign path s = true) :
    step rules path m s =
      match m.bound.lookup s.name with
      | some holder =>
        { m with
          imports := m.imports ++ [⟨s, none⟩]
          notices := m.notices ++ [.sharedName path s holder] }
      | none =>
        { m with
          imports := m.imports ++ [⟨s, none⟩]
          bound := Association.insert m.bound s.name s } := by
  have hnew : (m.imports.any (·.symbol == s) ||
      Path.isSelf s.module path rules.extensions) = false := by
    have hself : Path.isSelf s.module path rules.extensions = false := by
      simpa [NamingRules.isForeign] using hforeign
    rw [hself, Bool.or_false, List.any_eq_false]
    intro i hi hsymbol
    exact hs (List.mem_map.2 ⟨i, hi, by simpa using hsymbol⟩)
  unfold step
  refine if_neg ?_
  rw [hnew]
  exact Bool.false_ne_true

/-- What holds of the merge of some symbols into a resolution. -/
structure Reports (rules : NamingRules) (path : String) (r : Resolution) (symbols : List Symbol)
    (m : Merge) : Prop where
  /-- The holder of a name is the first import that binds it. -/
  holder : ∀ name, m.bound.lookup name = firstHolder? m.imports name
  /-- The names that newcomers share are reported. -/
  notices : m.notices = sharedNames path m.imports (newcomers rules path r symbols)
  /-- Without a report no local name is repeated. -/
  distinct : (m.imports.map Import.localName).Nodup ↔ m.notices = []

namespace Reports

variable {r : Resolution} {symbols : List Symbol} {m : Merge} {s : Symbol}

/-- The merge starts with the imports of a resolution, whose local names differ. -/
theorem start (h : (r.imports.map Import.localName).Nodup) :
    Reports rules path r [] (merge rules path r []) := by
  have hkeys : ((r.imports.map fun i => (i.localName, i.symbol)).map (·.1)).Nodup := by
    rwa [List.map_map]
  have hbound : (merge rules path r []).bound = r.imports.map fun i => (i.localName, i.symbol) :=
    Association.ofList_eq_self hkeys
  refine ⟨fun name => ?_, rfl, iff_of_true h rfl⟩
  rw [hbound, ← firstHolder?_eq_lookup]
  rfl

/-- A repeated symbol, one of the file's own module and one that is imported may be skipped. -/
theorem skip (h : Reports rules path r symbols m)
    (hknown : newcomers rules path r (symbols ++ [s]) = newcomers rules path r symbols) :
    Reports rules path r (symbols ++ [s]) m :=
  ⟨h.holder, by rw [h.notices, hknown], h.distinct⟩

/-- A symbol may be imported under a name that has a holder, with a report. -/
theorem share (h : Reports rules path r symbols m)
    (hnotices : sharedNames path (m.imports ++ [⟨s, none⟩])
      (newcomers rules path r (symbols ++ [s])) = m.notices ++
        ((firstHolder? m.imports s.name).map fun holder => .sharedName path s holder).toList)
    {holder : Symbol} (hholder : m.bound.lookup s.name = some holder) :
    Reports rules path r (symbols ++ [s])
      { m with
        imports := m.imports ++ [⟨s, none⟩]
        notices := m.notices ++ [.sharedName path s holder] } where
  holder name := by
    rw [firstHolder?_concat, ← h.holder]
    by_cases hname : s.name = name
    · rw [← hname, hholder]
      rfl
    · simp [hname]
  notices := by
    rw [hnotices, ← h.holder, hholder]
    rfl
  distinct := by
    refine iff_of_false ?_ (by simp)
    -- The name of the symbol is bound by its holder already.
    intro hnodup
    rw [h.holder] at hholder
    rw [List.map_append, List.map_singleton, List.nodup_append] at hnodup
    have hfree : firstHolder? m.imports s.name = none := by
      rw [firstHolder?_eq_none_iff]
      exact fun hmem => hnodup.2.2 _ hmem _ (List.mem_singleton_self _) rfl
    rw [hfree] at hholder
    cases hholder

/-- A symbol may be imported under a name without a holder, and becomes its holder. -/
theorem take (h : Reports rules path r symbols m)
    (hnotices : sharedNames path (m.imports ++ [⟨s, none⟩])
      (newcomers rules path r (symbols ++ [s])) = m.notices ++
        ((firstHolder? m.imports s.name).map fun holder => .sharedName path s holder).toList)
    (hholder : m.bound.lookup s.name = none) :
    Reports rules path r (symbols ++ [s])
      { m with
        imports := m.imports ++ [⟨s, none⟩]
        bound := Association.insert m.bound s.name s } where
  holder name := by
    rw [firstHolder?_concat, ← h.holder, Association.lookup_insert]
    by_cases hname : s.name = name
    · rw [← hname, hholder]
      simp
    · have hne : (name == s.name) = false := by simpa using Ne.symm hname
      simp [hname, hne]
  notices := by
    rw [hnotices, ← h.holder, hholder]
    exact (List.append_nil _).symm
  distinct := by
    rw [h.holder, firstHolder?_eq_none_iff] at hholder
    rw [← h.distinct]
    refine ⟨fun hnodup => ?_, fun hnodup => nodup_map_concat hnodup hholder⟩
    rw [List.map_append, List.nodup_append] at hnodup
    exact hnodup.1

/-- A step keeps what holds of the merge. -/
theorem step (h : Reports rules path r symbols (merge rules path r symbols)) (s : Symbol) :
    Reports rules path r (symbols ++ [s]) (merge rules path r (symbols ++ [s])) := by
  have hsymbols : (merge rules path r symbols).imports.map (·.symbol) =
      r.imported ++ newcomers rules path r symbols := imported_mergeUnrenamed rules path r symbols
  rw [merge_concat]
  generalize hm : merge rules path r symbols = m at *
  by_cases hs : s ∈ m.imports.map (·.symbol) ∨ rules.isForeign path s = false
  · rw [step_of_known m hs]
    refine h.skip (newcomers_concat_of_known ?_)
    rw [hsymbols, List.mem_append] at hs
    rcases hs with (hs | hs) | hs
    · exact .inr (.inr hs)
    · exact .inl (mem_newcomers.1 hs).1
    · exact .inr (.inl hs)
  · obtain ⟨hnew, hforeign⟩ := not_or.1 hs
    rw [Bool.not_eq_false] at hforeign
    have hnot : s ∉ r.imported ∧ s ∉ newcomers rules path r symbols := by
      rw [hsymbols, List.mem_append] at hnew
      exact not_or.1 hnew
    have hsymbol : s ∉ symbols := fun hmem =>
      hnot.2 (mem_newcomers.2 ⟨hmem, hforeign, hnot.1⟩)
    have hnotices : sharedNames path (m.imports ++ [⟨s, none⟩])
        (newcomers rules path r (symbols ++ [s])) = m.notices ++
          ((firstHolder? m.imports s.name).map fun holder => .sharedName path s holder).toList := by
      rw [newcomers_concat_of_new hsymbol hforeign hnot.1, h.notices]
      refine sharedNames_concat (fun x hx => ?_) hnew
      rw [hsymbols]
      exact List.mem_append_right _ hx
    rw [step_of_new m hnew hforeign]
    cases hholder : m.bound.lookup s.name with
    | some holder => exact h.share hnotices hholder
    | none => exact h.take hnotices hholder

end Reports

end Merge

/-- What holds of the merge of symbols into a resolution whose local names differ. -/
theorem merge_reports (rules : NamingRules) (path : String) {r : Resolution}
    (h : (r.imports.map Import.localName).Nodup) (symbols : List Symbol) :
    Merge.Reports rules path r symbols (merge rules path r symbols) := by
  induction symbols using List.reverseRecOn with
  | nil => exact Merge.Reports.start h
  | append_singleton symbols s ih => exact ih.step s

/-- Merging symbols into a resolved file leaves its renames and its imports as they are and adds
the first occurrences of the foreign symbols that are not imported, under their own names. Each of
them whose name an earlier import binds is reported in a warning, and nothing else is. So local
names are not repeated exactly if nothing is reported. The alias of every import is still the name
that its symbol goes by. -/
theorem merge_resolve_reports (rules : NamingRules) (path : String) (typed code : List Symbol) :
    let r := resolve rules path typed
    let merged := mergeUnrenamed rules path r code
    let notices := (merge rules path r code).notices
    merged.renames = r.renames ∧
      merged.imports = r.imports ++ (newcomers rules path r code).map (fun s => ⟨s, none⟩) ∧
      notices = sharedNames path merged.imports (newcomers rules path r code) ∧
      (∀ n ∈ notices, n.level = .warning) ∧
      ((merged.imports.map Import.localName).Nodup ↔ notices = []) ∧
      ∀ i ∈ merged.imports, merged.renames.aliasOf? i.symbol = i.newName := by
  intro r merged notices
  have hcoherent : r.Coherent := (scan_valid rules path typed).coherent
  have hreports := merge_reports rules path hcoherent.localNames_nodup code
  have hnotices : notices = sharedNames path merged.imports (newcomers rules path r code) :=
    hreports.notices
  refine ⟨rfl, merge_imports rules path r code, hnotices, ?_, hreports.distinct, ?_⟩
  · intro n hn
    rw [hnotices] at hn
    obtain ⟨s, -, hs⟩ := List.mem_filterMap.1 hn
    obtain ⟨holder, -, rfl⟩ := Option.map_eq_some_iff.1 hs
    rfl
  · exact fun i hi => (mergeUnrenamed_aligned hcoherent.toAligned code).aliasOf?_eq hi

/-- A merged symbol may share its name with a symbol that kept it, with an alias, or with another
merged symbol. -/
example :
    let r := resolve {} "store.ts" [⟨"Item", "./a"⟩, ⟨"Item", "./b"⟩]
    (merge {} "store.ts" r [⟨"Item", "./c"⟩, ⟨"Item_autoresolved_1", "./c"⟩, ⟨"Log", "./d"⟩,
      ⟨"Item", "./a"⟩, ⟨"Log", "./e"⟩]).notices =
      [.sharedName "store.ts" ⟨"Item", "./c"⟩ ⟨"Item", "./a"⟩,
        .sharedName "store.ts" ⟨"Item_autoresolved_1", "./c"⟩ ⟨"Item", "./b"⟩,
        .sharedName "store.ts" ⟨"Log", "./e"⟩ ⟨"Log", "./d"⟩] := by
  decide +kernel

end ModuleAssembly.Resolution
