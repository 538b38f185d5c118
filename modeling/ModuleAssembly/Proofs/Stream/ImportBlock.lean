import Mathlib.Data.List.Perm.Basic
import ModuleAssembly.Proofs.Resolution.Coherent
import ModuleAssembly.Proofs.Stream.Marks

/-!
# The symbols of the import statements

The import statements of a file bind symbols and use none. There is one statement for each specifier
(`Import.specifiers`), which binds the symbols imported from it in order (`Import.boundSymbols`),
and together they bind just the imported symbols, each as often as it is imported
(`blockSymbols_perm`).
-/

namespace ModuleAssembly

namespace Import

/-- The specifiers of placed imports, each once, in order. -/
def specifiers (imports : List (String × Import)) : List String :=
  (imports.map (·.1)).eraseDups.mergeSort fun a b => decide (a ≤ b)

/-- The imports that are placed at a specifier. -/
def placedAt (specifier : String) (imports : List (String × Import)) : List Import :=
  (imports.filter (·.1 == specifier)).map (·.2)

/-- The symbols that the statement for some imports binds, in order. -/
def boundSymbols (imports : List Import) : List Symbol :=
  (imports.mergeSort precedes).map (·.symbol)

/-- The symbols that the statements for placed imports bind, in order. -/
def blockSymbols (imports : List (String × Import)) : List Symbol :=
  (specifiers imports).flatMap fun specifier => boundSymbols (placedAt specifier imports)

/-- There is one statement for each specifier. -/
theorem statements_eq (imports : List (String × Import)) :
    statements imports = .concat ((specifiers imports).map fun specifier =>
      statement specifier (placedAt specifier imports)) :=
  rfl

/-- A statement binds its symbols. -/
theorem marks_statement (specifier : String) (imports : List Import) :
    (statement specifier imports).marks = .ofList ((boundSymbols imports).map .binding) := by
  have hbinding : (Output.marks ∘ fun i : Import => Output.single (Piece.binding i.symbol)) =
      fun i => .ofList [Token.binding i.symbol] := rfl
  rw [statement, Output.marks_append, Output.marks_append, Emission.marks_separated, List.map_map,
    hbinding, Output.concat_map_ofList]
  simp [boundSymbols, ← List.map_eq_flatMap, Function.comp_def]

/-- The statements bind their symbols. -/
theorem marks_statements (imports : List (String × Import)) :
    (statements imports).marks = .ofList ((blockSymbols imports).map .binding) := by
  rw [statements_eq, Output.marks_concat, List.map_map, blockSymbols, List.map_flatMap,
    ← Output.concat_map_ofList]
  congr 1
  refine List.map_congr_left fun specifier _ => ?_
  exact marks_statement specifier _

/-! ## All imports are bound -/

/-- Elements grouped by a key, for each of different keys in turn, are the elements in some order,
if every key is among those. -/
theorem flatMap_filter_perm {α κ : Type} [DecidableEq κ] (key : α → κ) (keys : List κ)
    (xs : List α) (hnodup : keys.Nodup) (hkeys : ∀ x ∈ xs, key x ∈ keys) :
    (keys.flatMap fun k => xs.filter (key · == k)).Perm xs := by
  induction xs with
  | nil => simp
  | cons x xs ih =>
    -- The first element stands in the group of its key and in no other.
    have hone : keys.flatMap (fun k => [x].filter (key · == k)) = [x] := by
      obtain ⟨before, after, rfl⟩ := List.append_of_mem (hkeys x List.mem_cons_self)
      have hbefore : key x ∉ before := fun hx =>
        (List.nodup_append.1 hnodup).2.2 _ hx _ List.mem_cons_self rfl
      have hafter : key x ∉ after := (List.nodup_cons.1 (List.nodup_append.1 hnodup).2.1).1
      have hnone : ∀ ks : List κ, key x ∉ ks →
          ks.flatMap (fun k => [x].filter (key · == k)) = [] := by
        intro ks hks
        refine List.flatMap_eq_nil_iff.2 fun k hk => ?_
        have hne : key x ≠ k := fun h => hks (h ▸ hk)
        simp [hne]
      rw [List.flatMap_append, List.flatMap_cons, hnone before hbefore, hnone after hafter]
      simp
    have hsplit : (fun k => (x :: xs).filter (key · == k)) =
        fun k => [x].filter (key · == k) ++ xs.filter (key · == k) := by
      funext k
      rw [← List.filter_append, List.singleton_append]
    rw [hsplit]
    -- Taken out of its group, the first element moves to the front.
    refine (List.flatMap_append_perm keys _ _).symm.trans ?_
    rw [hone]
    exact (ih fun y hy => hkeys y (List.mem_cons_of_mem x hy)).cons x

/-- The specifiers are those at which imports are placed. -/
theorem mem_specifiers {imports : List (String × Import)} {specifier : String} :
    specifier ∈ specifiers imports ↔ specifier ∈ imports.map (·.1) := by
  rw [specifiers, (List.mergeSort_perm _ _).mem_iff, List.mem_eraseDups]

/-- The statement for a specifier binds the symbols of the imports placed there. -/
theorem mem_boundSymbols {imports : List (String × Import)} {specifier : String} {s : Symbol} :
    s ∈ boundSymbols (placedAt specifier imports) ↔
      ∃ p ∈ imports, p.1 = specifier ∧ p.2.symbol = s := by
  unfold boundSymbols placedAt
  rw [((List.mergeSort_perm _ _).map _).mem_iff]
  simp only [List.mem_map, List.mem_filter, beq_iff_eq]
  constructor
  · rintro ⟨i, ⟨p, ⟨hp, hspecifier⟩, rfl⟩, hsymbol⟩
    exact ⟨p, hp, hspecifier, hsymbol⟩
  · rintro ⟨p, hp, hspecifier, hsymbol⟩
    exact ⟨p.2, ⟨p, ⟨hp, hspecifier⟩, rfl⟩, hsymbol⟩

/-- No specifier is repeated. -/
theorem specifiers_nodup (imports : List (String × Import)) : (specifiers imports).Nodup :=
  (List.mergeSort_perm _ _).nodup_iff.2 (eraseDups_nodup _)

/-- Each import stands in one statement, as often as it is imported. -/
theorem placedAt_perm (imports : List (String × Import)) :
    ((specifiers imports).flatMap fun specifier =>
      (placedAt specifier imports).mergeSort precedes).Perm (imports.map (·.2)) := by
  have hgroups : ((specifiers imports).flatMap fun specifier =>
      imports.filter (·.1 == specifier)).Perm imports :=
    flatMap_filter_perm (·.1) _ imports (specifiers_nodup imports)
      fun i hi => mem_specifiers.2 (List.mem_map_of_mem hi)
  -- Inside a statement the imports are sorted, which permutes each group.
  refine List.Perm.trans ?_ (hgroups.map (·.2))
  rw [List.map_flatMap]
  exact List.Perm.flatMap_left _ fun specifier _ => List.mergeSort_perm _ _

/-- The statements bind the symbols of the imports, each as often as it is imported. -/
theorem blockSymbols_perm (imports : List (String × Import)) :
    (blockSymbols imports).Perm (imports.map (·.2.symbol)) := by
  have hsymbols := (placedAt_perm imports).map (·.symbol)
  rwa [List.map_flatMap, List.map_map] at hsymbols

/-- If imports can be placed, each is placed at the specifier of its module. -/
theorem mapM_placed {base : List String} {file : String} {imports : List Import}
    {result : List (String × Import)} (h : imports.mapM (placed base file) = .ok result) :
    result.map (·.2) = imports ∧
      ∀ p ∈ result, Path.specifier base p.2.symbol.module file = .ok p.1 := by
  induction imports generalizing result with
  | nil =>
    rw [List.mapM_nil] at h
    cases h
    simp
  | cons i imports ih =>
    rw [List.mapM_cons] at h
    cases hi : Path.specifier base i.symbol.module file with
    | error fault => simp [placed, hi, Except.map, bind, Except.bind] at h
    | ok specifier =>
      cases hrest : imports.mapM (placed base file) with
      | error fault => simp [placed, hi, hrest, Except.map, bind, Except.bind] at h
      | ok rest =>
        simp only [placed, hi, hrest, Except.map, bind, Except.bind, pure, Except.pure,
          Except.ok.injEq] at h
        obtain ⟨himports, hplaced⟩ := ih hrest
        subst h
        refine ⟨by simp [himports], ?_⟩
        intro p hp
        rcases List.mem_cons.1 hp with rfl | hp
        · exact hi
        · exact hplaced p hp

/-- Without imports there are no statements. -/
theorem marks_block_nil (base : List String) (file : String) :
    (block base file []).marks = .empty := by
  have hsymbols : blockSymbols [] = [] := (blockSymbols_perm []).eq_nil
  have hblock : block base file [] = statements [] := by simp [block, pure, Except.pure]
  rw [hblock, marks_statements, hsymbols]
  rfl

/-- The marks of the statements of a file are bindings, as far as its imports can be placed. -/
theorem marks_block (base : List String) (file : String) (imports : List Import) :
    (∃ result, imports.mapM (placed base file) = .ok result ∧
      (block base file imports).marks = .ofList ((blockSymbols result).map .binding)) ∨
    ∃ fault, imports.mapM (placed base file) = .error fault ∧
      (block base file imports).marks = .stop fault := by
  unfold block
  cases h : imports.mapM (placed base file) with
  | ok result => exact .inl ⟨result, rfl, marks_statements result⟩
  | error fault => exact .inr ⟨fault, rfl, Output.marks_stop fault⟩

end Import

end ModuleAssembly
