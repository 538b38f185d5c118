import Mathlib.Data.Nat.Find
import Mathlib.Order.Bounds.Basic
import ModuleAssembly.Proofs.Resolution.Scan

/-!
# The assignment of numbers

Which foreign symbols of a file go by an alias, and with which number, said without the tables that
the scan keeps: a symbol is numbered exactly if its name is the local name of an earlier import, and
its number is the least one above the last that its name was given for which the alias is no local
name of an earlier import (`Numbered.next`). A file is resolved in just this way.

The proof follows the scan. `Scan.Follows` says that the scan's imports are those assigned so far
and that its counters hold the last numbers given; a step of the scan keeps it (`Follows.step`)
because both sides look at the same local names (`Scan.Valid`).
-/

namespace ModuleAssembly

/-- A symbol with the number of its alias, or without one if it keeps its name. -/
structure Numbered where
  /-- The symbol. -/
  symbol : Symbol
  /-- The number of its alias, if it has one. -/
  number : Option Nat
deriving DecidableEq, Repr

namespace Numbered

/-- The import of a numbered symbol. -/
def toImport (suffix : String) (n : Numbered) : Import :=
  ⟨n.symbol, n.number.map (SeenNames.numbered n.symbol.name suffix)⟩

/-- The last number that a name was given, zero before the first. -/
def last (earlier : List Numbered) (name : String) : Nat :=
  ((earlier.filter (·.symbol.name = name)).filterMap (·.number)).getLastD 0

/-- The least number above the last one whose alias is none of the names. -/
def leastFree (names : List String) (name suffix : String) (last : Nat) : Nat :=
  Nat.find (SeenNames.exists_free_number names name suffix last)

/-- How a symbol is numbered after earlier ones. -/
def next (suffix : String) (earlier : List Numbered) (s : Symbol) : Numbered :=
  let names := earlier.map fun n => (n.toImport suffix).localName
  if s.name ∈ names then ⟨s, some (leastFree names s.name suffix (last earlier s.name))⟩
  else ⟨s, none⟩

/-- Different symbols, numbered in order. -/
def assign (suffix : String) (symbols : List Symbol) : List Numbered :=
  symbols.foldl (fun earlier s => earlier ++ [next suffix earlier s]) []

/-- The last symbol is numbered after the others. -/
theorem assign_concat (suffix : String) (symbols : List Symbol) (s : Symbol) :
    assign suffix (symbols ++ [s]) =
      assign suffix symbols ++ [next suffix (assign suffix symbols) s] := by
  simp [assign]

/-- A symbol that keeps its name gives out no number. -/
theorem last_concat_none (earlier : List Numbered) (s : Symbol) (name : String) :
    last (earlier ++ [⟨s, none⟩]) name = last earlier name := by
  unfold last
  rw [List.filter_append, List.filterMap_append]
  by_cases h : s.name = name
  · simp [h]
  · simp [h]

/-- A numbered symbol gives out its number for its name. -/
theorem last_concat_some (earlier : List Numbered) (s : Symbol) (k : Nat) (name : String) :
    last (earlier ++ [⟨s, some k⟩]) name = if name = s.name then k else last earlier name := by
  unfold last
  rw [List.filter_append, List.filterMap_append]
  by_cases h : s.name = name
  · simp [h]
  · simp [h, Ne.symm h]

/-- The least free number is the least of the free ones. -/
theorem leastFree_isLeast (names : List String) (name suffix : String) (last : Nat) :
    IsLeast {k | last < k ∧ SeenNames.numbered name suffix k ∉ names}
      (leastFree names name suffix last) :=
  ⟨Nat.find_spec (SeenNames.exists_free_number names name suffix last),
    fun _ hk => Nat.find_min' (SeenNames.exists_free_number names name suffix last) hk⟩

end Numbered

namespace Resolution

variable {rules : NamingRules} {path : String}

/-- The scan has numbered symbols as given. -/
structure Scan.Follows (suffix : String) (ns : List Numbered) (s : Scan) : Prop where
  /-- The imports are those of the numbered symbols. -/
  imports : s.resolution.imports = ns.map (Numbered.toImport suffix)
  /-- The counters hold the last number given for each name. -/
  counter : ∀ name, s.seen.counter name = Numbered.last ns name

namespace Scan.Follows

variable {symbols : List Symbol} {ns : List Numbered} {s : Scan} {x : Symbol}

/-- The names that are taken are the local names of the numbered symbols. -/
theorem names_eq (h : Follows rules.suffix ns s) (hvalid : Valid rules path symbols s) :
    s.seen.names = ns.map fun n => (n.toImport rules.suffix).localName := by
  rw [hvalid.names_eq, h.imports, List.map_map]
  rfl

/-- A symbol that keeps its name is not numbered. -/
theorem keep (h : Follows rules.suffix ns s) (hvalid : Valid rules path symbols s)
    (hname : x.name ∉ s.seen.names) :
    Follows rules.suffix (ns ++ [Numbered.next rules.suffix ns x])
      (Scan.keep { s with met := x :: s.met } x) := by
  have hnext : Numbered.next rules.suffix ns x = ⟨x, none⟩ := by
    rw [h.names_eq hvalid] at hname
    simp only [Numbered.next, if_neg hname]
  rw [hnext]
  constructor
  · simp [Scan.keep, h.imports, Numbered.toImport]
  · intro name
    rw [Numbered.last_concat_none]
    exact h.counter name

/-- A symbol whose name is taken gets the least free number. -/
theorem rename (h : Follows rules.suffix ns s) (hvalid : Valid rules path symbols s)
    (hname : x.name ∈ s.seen.names) (keeper : Symbol) :
    Follows rules.suffix (ns ++ [Numbered.next rules.suffix ns x])
      (Scan.rename rules.suffix { s with met := x :: s.met } x keeper) := by
  -- Both numbers are the least of one set, since the counters and the names taken agree.
  have hleast := s.seen.freeIndex_isLeast x.name rules.suffix
  rw [h.counter, h.names_eq hvalid] at hleast
  have hnext : Numbered.next rules.suffix ns x =
      ⟨x, some (s.seen.freeIndex x.name rules.suffix)⟩ := by
    rw [h.names_eq hvalid] at hname
    simp only [Numbered.next, if_pos hname]
    rw [hleast.unique (Numbered.leastFree_isLeast _ _ _ _)]
  rw [hnext]
  constructor
  · simp [Scan.rename, SeenNames.nextAlias, h.imports, Numbered.toImport]
  · intro name
    rw [Numbered.last_concat_some, ← h.counter]
    exact s.seen.counter_setCounter x.name name _

/-- A step numbers a new foreign symbol and no other. -/
theorem step
    (h : Follows rules.suffix (Numbered.assign rules.suffix (rules.foreign path symbols)) s)
    (hvalid : Valid rules path symbols s) (x : Symbol) :
    Follows rules.suffix (Numbered.assign rules.suffix (rules.foreign path (symbols ++ [x])))
      (Scan.step rules path s x) := by
  have hnew : x ∉ s.met → x ∉ symbols := fun hmet hx => hmet ((hvalid.met x).2 hx)
  obtain ⟨hmet, hstep⟩ | ⟨-, hself, hstep⟩ | ⟨hmet, hforeign, hholder, hstep⟩ |
    ⟨keeper, hmet, hforeign, hholder, hstep⟩ := step_cases rules path s x
  · rw [hstep, NamingRules.foreign_concat_of_mem_or_self (.inl ((hvalid.met x).1 hmet))]
    exact h
  · rw [hstep, NamingRules.foreign_concat_of_mem_or_self (.inr hself)]
    exact ⟨h.imports, h.counter⟩
  · rw [hstep, NamingRules.foreign_concat_of_new (hnew hmet) hforeign, Numbered.assign_concat]
    exact h.keep hvalid ((s.seen.holder?_eq_none_iff x.name).1 hholder)
  · rw [hstep, NamingRules.foreign_concat_of_new (hnew hmet) hforeign, Numbered.assign_concat]
    refine h.rename hvalid ?_ keeper
    by_contra hname
    simp [(s.seen.holder?_eq_none_iff x.name).2 hname] at hholder

end Scan.Follows

/-- The scan numbers the foreign symbols as they are assigned. -/
theorem scan_follows (rules : NamingRules) (path : String) (symbols : List Symbol) :
    Scan.Follows rules.suffix (Numbered.assign rules.suffix (rules.foreign path symbols))
      (scan rules path symbols) := by
  induction symbols using List.reverseRecOn with
  | nil => exact ⟨rfl, fun _ => rfl⟩
  | append_singleton symbols x ih =>
    rw [scan_concat]
    exact ih.step (scan_valid rules path symbols) x

/-- A file is resolved by numbering its foreign symbols: these are its imports, and the numbered
ones, in the same order, its renames. -/
theorem resolve_eq_assign (rules : NamingRules) (path : String) (symbols : List Symbol) :
    let ns := Numbered.assign rules.suffix (rules.foreign path symbols)
    (resolve rules path symbols).imports = ns.map (Numbered.toImport rules.suffix) ∧
      (resolve rules path symbols).renames.entries.map Rename.asImport =
        (ns.filter (·.number.isSome)).map (Numbered.toImport rules.suffix) := by
  have himports := (scan_follows rules path symbols).imports
  refine ⟨himports, ?_⟩
  -- The renames are the imports with an alias, which are those of the numbered symbols.
  have hrenamed := (scan_valid rules path symbols).coherent.renamed
  rw [himports, List.filter_map] at hrenamed
  rw [resolve, hrenamed]
  simp [Numbered.toImport, Function.comp_def]

/-- Without a suffix an alias may look like the name of another symbol, which then is taken. -/
example : (resolve ⟨"", []⟩ "store.ts" [⟨"A", "m"⟩, ⟨"A", "n"⟩, ⟨"A1", "m"⟩]).imports.map
    Import.localName = ["A", "A1", "A11"] := by
  decide +kernel

end Resolution

end ModuleAssembly
