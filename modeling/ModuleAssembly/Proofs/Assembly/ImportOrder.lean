import Mathlib.Data.Prod.Lex
import Mathlib.Data.String.Basic
import ModuleAssembly.Proofs.Assembly.Failure
import ModuleAssembly.Proofs.Stream.Rendering

/-!
# The order of the imports

The import statements of a file stand in the order of their specifiers, and the imports of a
statement in the order of their names and aliases (`Import.sortKey`). Two imports may have one name
and one alias, so the order in which the imports are given can show in the tokens. It does not show
in the text if the renames of the file give the imports their aliases: then the name and the alias
of an import determine the text that binds it (`Import.resolve_binding`), and sorted imports have
the same names and aliases in whichever order they were given (`Import.map_sortKey_mergeSort`).
-/

namespace ModuleAssembly

/-! ## Tokens of several statements -/

/-- The tokens of import statements after a text. The text between the symbols of two statements is
one token. -/
def Token.statementsAfter (before : String) : List (String × List Symbol) → List Token
  | [] => [.text before]
  | (specifier, symbols) :: statements =>
    .text (before ++ Import.statementHead) :: bindingList symbols ++
      statementsAfter (Import.statementTail specifier) statements

/-- At the outermost level statements are written as their tokens, of which the first is added to
the text that the tokens end in. -/
theorem Writer.tokens_write_statements {w : Writer} (hlevel : w.level = 0)
    {statements : List (String × List Symbol)} (hsymbols : ∀ st ∈ statements, st.2 ≠ [])
    (htext : statements = [] → ∃ t older, w.latest = .text t :: older) :
    (w.write (statements.flatMap fun st => Import.statementPieces st.1 st.2)).tokens =
      w.beforeEnding.reverse ++ Token.statementsAfter w.ending statements := by
  induction statements generalizing w with
  | nil =>
    obtain ⟨t, older, hlatest⟩ := htext rfl
    simp [write, tokens, beforeEnding, ending, hlatest, Token.statementsAfter]
  | cons st statements ih =>
    obtain ⟨specifier, symbols⟩ := st
    obtain ⟨hst, hrest⟩ := List.forall_mem_cons.1 hsymbols
    obtain ⟨hvlevel, hlatest⟩ := latest_write_statementPieces hlevel specifier hst
    generalize hv : w.write (Import.statementPieces specifier symbols) = v at hvlevel hlatest
    rw [List.flatMap_cons, write_append, hv, ih hvlevel hrest fun _ => ⟨_, _, hlatest⟩]
    simp [beforeEnding, ending, hlatest, Token.statementsAfter]

namespace Import

/-! ## Sorted imports -/

/-- What the imports of a statement are ordered by: the name, then the alias. -/
def sortKey (i : Import) : String ×ₗ String :=
  toLex (i.symbol.name, i.aliasKey)

/-- An import may stand before another exactly if its name and alias may. -/
theorem precedes_iff {a b : Import} : precedes a b = true ↔ a.sortKey ≤ b.sortKey := by
  simp [precedes, sortKey, Prod.Lex.le_iff]

/-- The imports of a statement are sorted. -/
theorem pairwise_mergeSort_precedes (imports : List Import) :
    (imports.mergeSort precedes).Pairwise fun a b => a.sortKey ≤ b.sortKey := by
  have hsorted : (imports.mergeSort precedes).Pairwise fun a b => precedes a b = true := by
    refine List.pairwise_mergeSort (fun a b c => ?_) (fun a b => ?_) imports
    · rw [precedes_iff, precedes_iff, precedes_iff]
      exact le_trans
    · rw [Bool.or_eq_true, precedes_iff, precedes_iff]
      exact le_total _ _
  exact hsorted.imp precedes_iff.1

/-- Sorted imports have the same names and aliases in whichever order they were given. -/
theorem map_sortKey_mergeSort {xs ys : List Import} (h : xs.Perm ys) :
    (xs.mergeSort precedes).map sortKey = (ys.mergeSort precedes).map sortKey := by
  have hperm : (xs.mergeSort precedes).Perm (ys.mergeSort precedes) :=
    ((List.mergeSort_perm xs _).trans h).trans (List.mergeSort_perm ys _).symm
  exact List.Perm.eq_of_pairwise (fun _ _ _ _ => le_antisymm)
    (List.pairwise_map.2 (pairwise_mergeSort_precedes xs))
    (List.pairwise_map.2 (pairwise_mergeSort_precedes ys)) (hperm.map sortKey)

/-- The specifiers increase. -/
theorem pairwise_specifiers (imports : List (String × Import)) :
    (specifiers imports).Pairwise (· < ·) := by
  have hsorted : (specifiers imports).Pairwise fun a b => decide (a ≤ b) = true := by
    refine List.pairwise_mergeSort (fun a b c => ?_) (fun a b => ?_) _
    · simpa only [decide_eq_true_eq] using le_trans
    · simpa only [Bool.or_eq_true, decide_eq_true_eq] using le_total a b
  refine hsorted.imp₂ (fun a b hle hne => ?_) (specifiers_nodup imports)
  exact lt_of_le_of_ne (of_decide_eq_true hle) hne

/-- The specifiers are the same in whichever order the imports were given. -/
theorem specifiers_congr {xs ys : List (String × Import)} (h : xs.Perm ys) :
    specifiers xs = specifiers ys := by
  have hperm : (specifiers xs).Perm (specifiers ys) := by
    rw [List.perm_ext_iff_of_nodup (specifiers_nodup xs) (specifiers_nodup ys)]
    intro specifier
    rw [mem_specifiers, mem_specifiers, (h.map (·.1)).mem_iff]
  exact List.Perm.eq_of_pairwise (fun _ _ _ _ hab hba => absurd hab (not_lt_of_gt hba))
    (pairwise_specifiers xs) (pairwise_specifiers ys) hperm

/-! ## The text of sorted imports -/

variable {table : RenameTable}

/-- The text that binds a name with an alias, or without one. -/
def bindingText (key : String ×ₗ String) : String :=
  let (name, newName) := ofLex key
  if newName = "" then name else name ++ " as " ++ newName

/-- The text that binds an import, if its alias is the one that the renames give. -/
theorem resolve_binding {i : Import} (h : i.newName = table.aliasOf? i.symbol) :
    Token.resolve table (.binding i.symbol) = bindingText i.sortKey := by
  have hkey : bindingText i.sortKey =
      if i.aliasKey = "" then i.symbol.name else i.symbol.name ++ " as " ++ i.aliasKey := rfl
  rw [Token.resolve, Token.aliasIn, ← h, hkey, aliasKey]
  cases hname : i.newName with
  | none => rfl
  | some name =>
    by_cases hempty : name = ""
    · rw [hempty]
      rfl
    · have hfilter : (some name).filter (· != "") = some name := by simp [hempty]
      rw [hfilter, Option.getD_some, if_neg hempty]

/-- The texts that bind the imports of a statement. -/
theorem map_resolve_boundSymbols {imports : List Import}
    (h : ∀ i ∈ imports, i.newName = table.aliasOf? i.symbol) :
    (boundSymbols imports).map (fun s => Token.resolve table (.binding s)) =
      ((imports.mergeSort precedes).map sortKey).map bindingText := by
  rw [boundSymbols, List.map_map, List.map_map]
  exact List.map_congr_left fun i hi =>
    resolve_binding (h i ((List.mergeSort_perm _ _).mem_iff.1 hi))

/-- Statements with symbols of the same texts are alike. -/
theorem alike_statementPieces (specifier : String) {xs ys : List Symbol}
    (h : xs.map (fun s => Token.resolve table (.binding s)) =
      ys.map fun s => Token.resolve table (.binding s)) :
    List.Forall₂ (Piece.Alike table) (statementPieces specifier xs)
      (statementPieces specifier ys) := by
  have htexts : List.Forall₂ (fun s r => Token.resolve table (.binding s) =
      Token.resolve table (.binding r)) xs ys := by
    rwa [← List.forall₂_eq_eq_eq, List.forall₂_map_left_iff, List.forall₂_map_right_iff] at h
  have hbindings : List.Forall₂ (Piece.Alike table)
      ((xs.map Piece.binding).intersperse (.text ", "))
      ((ys.map Piece.binding).intersperse (.text ", ")) := by
    clear h
    induction htexts with
    | nil => exact .nil
    | cons hfirst hrest ih =>
      cases hrest with
      | nil => exact .cons (.binding hfirst) .nil
      | cons _ _ => exact .cons (.binding hfirst) (.cons (.same _) ih)
  exact .cons (.same _) (List.rel_append hbindings (.cons (.same _) .nil))

/-- The statements for imports whose aliases the renames give are alike in whichever order the
imports were given. -/
theorem alike_statements {xs ys : List (String × Import)} (h : xs.Perm ys)
    (haliases : ∀ p ∈ ys, p.2.newName = table.aliasOf? p.2.symbol) :
    List.Forall₂ (Piece.Alike table)
      ((specifiers xs).flatMap fun specifier =>
        statementPieces specifier (boundSymbols (placedAt specifier xs)))
      ((specifiers ys).flatMap fun specifier =>
        statementPieces specifier (boundSymbols (placedAt specifier ys))) := by
  rw [specifiers_congr h]
  refine List.rel_flatMap (List.forall₂_same.2 fun specifier _ => rfl) ?_
  rintro specifier _ rfl
  have hplaced : (placedAt specifier xs).Perm (placedAt specifier ys) := (h.filter _).map _
  have hys : ∀ i ∈ placedAt specifier ys, i.newName = table.aliasOf? i.symbol := by
    intro i hi
    obtain ⟨p, hp, rfl⟩ := List.mem_map.1 hi
    exact haliases p (List.mem_of_mem_filter hp)
  have hxs : ∀ i ∈ placedAt specifier xs, i.newName = table.aliasOf? i.symbol :=
    fun i hi => hys i (hplaced.mem_iff.1 hi)
  refine alike_statementPieces specifier ?_
  rw [map_resolve_boundSymbols hxs, map_resolve_boundSymbols hys, map_sortKey_mergeSort hplaced]

/-! ## The statements of a file -/

/-- An import with the specifier of its module, if this has one. -/
def withSpecifier (base : List String) (file : String) (i : Import) : String × Import :=
  ((Path.specifier base i.symbol.module file).toOption.getD "", i)

/-- Imports of modules are placed at the specifiers of these. -/
theorem mapM_placed_of_modules {base : List String} {file : String} {imports : List Import}
    (h : ∀ i ∈ imports, i.symbol.module ≠ Path.localMark) :
    imports.mapM (placed base file) = .ok (imports.map (withSpecifier base file)) := by
  rcases mapM_placed_cases base file imports with ⟨⟨i, hi, hroot⟩, -⟩ | ⟨-, result, hresult⟩
  · exact absurd hroot (h i hi)
  · obtain ⟨himports, hplaced⟩ := mapM_placed hresult
    have hresults : result.map (withSpecifier base file ∘ (·.2)) = result.map id := by
      refine List.map_congr_left fun p hp => ?_
      simp [withSpecifier, hplaced p hp, Except.toOption]
    rw [hresult, ← himports, List.map_map, hresults, List.map_id]

/-- The text of the statements for imports whose aliases the renames give is the same in whichever
order the imports are given. -/
theorem render_block_congr {base : List String} {file : String} {imports others : List Import}
    (h : ∀ i ∈ imports, i.symbol.module ≠ Path.localMark) (hperm : others.Perm imports)
    (haliases : ∀ i ∈ imports, i.newName = table.aliasOf? i.symbol) (w : Writer) :
    Token.render table (w.write (block base file others).items).tokens =
      Token.render table (w.write (block base file imports).items).tokens := by
  have hothers : ∀ i ∈ others, i.symbol.module ≠ Path.localMark :=
    fun i hi => h i (hperm.mem_iff.1 hi)
  have hplaced : ∀ p ∈ imports.map (withSpecifier base file),
      p.2.newName = table.aliasOf? p.2.symbol := by
    intro p hp
    obtain ⟨i, hi, rfl⟩ := List.mem_map.1 hp
    exact haliases i hi
  rw [block_eq_ofList (mapM_placed_of_modules h), block_eq_ofList (mapM_placed_of_modules hothers)]
  -- A writer is ahead of itself by nothing, and stays so.
  have hsame : w.Ahead table "" w := ⟨rfl, rfl, rfl, String.empty_append.symm⟩
  have hrendered :=
    (hsame.write_alike (alike_statements (hperm.map (withSpecifier base file)) hplaced)).rendered_eq
  rwa [String.empty_append] at hrendered

/-- The statements for imports: a specifier each, with the imports of the statement. -/
structure IsGrouping (base : List String) (file : String) (imports : List Import)
    (statements : List (String × List Import)) : Prop where
  /-- The specifiers increase, by their code points, so each has one statement. -/
  increasing : statements.Pairwise fun st st' => st.1 < st'.1
  /-- A statement has an import. -/
  nonempty : ∀ st ∈ statements, st.2 ≠ []
  /-- The imports of a statement are sorted by name and alias. -/
  sorted : ∀ st ∈ statements, st.2.Pairwise fun i j => i.sortKey ≤ j.sortKey
  /-- The imports of a statement are of its specifier. -/
  placed : ∀ st ∈ statements, ∀ i ∈ st.2, Path.specifier base i.symbol.module file = .ok st.1
  /-- Each import stands in a statement as often as it is given. -/
  perm : (statements.flatMap (·.2)).Perm imports

/-- The specifiers of placed imports, each with the imports that are placed there, in order. -/
def groups (imports : List (String × Import)) : List (String × List Import) :=
  (specifiers imports).map fun specifier =>
    (specifier, (placedAt specifier imports).mergeSort precedes)

/-- Imports of modules are grouped by the specifiers of these. -/
theorem isGrouping_groups {base : List String} {file : String} {imports : List Import}
    (h : ∀ i ∈ imports, i.symbol.module ≠ Path.localMark) :
    IsGrouping base file imports (groups (imports.map (withSpecifier base file))) := by
  have hmapM : imports.mapM (Import.placed base file) = .ok _ := mapM_placed_of_modules h
  obtain ⟨hsecond, hplaced⟩ := mapM_placed hmapM
  generalize imports.map (withSpecifier base file) = result at hsecond hplaced
  refine ⟨?_, ?_, ?_, ?_, ?_⟩
  · exact List.pairwise_map.2 (pairwise_specifiers result)
  · rintro st hst
    obtain ⟨specifier, hspecifier, rfl⟩ := List.mem_map.1 hst
    obtain ⟨p, hp, rfl⟩ := List.mem_map.1 (mem_specifiers.1 hspecifier)
    have hmem : p.2 ∈ (placedAt p.1 result).mergeSort precedes :=
      (List.mergeSort_perm _ _).mem_iff.2
        (List.mem_map_of_mem (List.mem_filter.2 ⟨hp, beq_self_eq_true p.1⟩))
    exact List.ne_nil_of_mem hmem
  · intro st hst
    obtain ⟨specifier, -, rfl⟩ := List.mem_map.1 hst
    exact pairwise_mergeSort_precedes _
  · intro st hst i hi
    obtain ⟨specifier, -, rfl⟩ := List.mem_map.1 hst
    obtain ⟨p, hp, rfl⟩ := List.mem_map.1 ((List.mergeSort_perm _ _).mem_iff.1 hi)
    obtain ⟨hmem, hspecifier⟩ := List.mem_filter.1 hp
    rw [hplaced p hmem, eq_of_beq hspecifier]
  · rw [groups, List.flatMap_map, ← hsecond]
    exact placedAt_perm result

/-- The statements for imports of modules add the bindings of their imports to a stream. -/
theorem bindings_write_block {base : List String} {file : String} {imports : List Import}
    (h : ∀ i ∈ imports, i.symbol.module ≠ Path.localMark) (w : Writer) :
    Token.bindings (w.write (block base file imports).items).tokens = Token.bindings w.tokens ++
      ((groups (imports.map (withSpecifier base file))).flatMap (·.2)).map (·.symbol) := by
  generalize hresult : imports.map (withSpecifier base file) = result
  have hblock : block base file imports = statements result := by
    rw [block, mapM_placed_of_modules h, hresult]
  have hsymbols : ((groups result).flatMap (·.2)).map (·.symbol) = blockSymbols result := by
    rw [groups, List.flatMap_map, List.map_flatMap]
    rfl
  have hmarks : (block base file imports).items.filterMap Piece.mark? =
      (blockSymbols result).map .binding := by
    rw [hblock]
    exact congrArg Output.items (marks_statements result)
  rw [← Token.bindings_marks, Writer.marks_write, Token.bindings_append, Token.bindings_marks,
    hmarks, Token.bindings_map_binding, hsymbols]

/-- Imports of modules are written in one statement for each specifier. The specifiers increase, the
imports of a statement are those of its specifier, sorted by name and alias, and each import is
bound as often as it is given. If the renames give the imports their aliases, the text does not
depend on the order in which the imports are given, whatever was written before. -/
theorem block_ordered {base : List String} {file : String} {imports : List Import}
    (h : ∀ i ∈ imports, i.symbol.module ≠ Path.localMark) :
    (∃ statements, IsGrouping base file imports statements ∧
      block base file imports =
        .ofList (statements.flatMap fun st => statementPieces st.1 (st.2.map (·.symbol))) ∧
      (∀ w : Writer, Token.bindings (w.write (block base file imports).items).tokens =
        Token.bindings w.tokens ++ (statements.flatMap (·.2)).map (·.symbol)) ∧
      (imports ≠ [] → ∀ w : Writer, w.level = 0 →
        (w.write (block base file imports).items).tokens = w.beforeEnding.reverse ++
          Token.statementsAfter w.ending
            (statements.map fun st => (st.1, st.2.map (·.symbol))))) ∧
      ∀ table : RenameTable, (∀ i ∈ imports, i.newName = table.aliasOf? i.symbol) →
        ∀ others : List Import, others.Perm imports → ∀ w : Writer,
          Token.render table (w.write (block base file others).items).tokens =
            Token.render table (w.write (block base file imports).items).tokens := by
  refine ⟨?_, fun table haliases others hperm w => render_block_congr h hperm haliases w⟩
  have hgrouping : IsGrouping base file imports _ := isGrouping_groups h
  have hbindings : ∀ w : Writer, Token.bindings (w.write (block base file imports).items).tokens =
      _ := bindings_write_block h
  have hblock : block base file imports =
      .ofList ((groups (imports.map (withSpecifier base file))).flatMap fun st =>
        statementPieces st.1 (st.2.map (·.symbol))) := by
    rw [block_eq_ofList (mapM_placed_of_modules h), groups, List.flatMap_map]
    rfl
  generalize groups (imports.map (withSpecifier base file)) = statements
    at hgrouping hbindings hblock
  refine ⟨statements, hgrouping, hblock, hbindings, fun hne w hlevel => ?_⟩
  have hsome : statements ≠ [] := by
    rintro rfl
    exact hne hgrouping.perm.symm.eq_nil
  have hpieces : (block base file imports).items =
      (statements.map fun st => (st.1, st.2.map (·.symbol))).flatMap
        fun st => statementPieces st.1 st.2 := by
    rw [hblock, List.flatMap_map]
    rfl
  rw [hpieces]
  refine Writer.tokens_write_statements hlevel ?_ fun hnil => ?_
  · intro st hst
    obtain ⟨st, hmem, rfl⟩ := List.mem_map.1 hst
    simpa using hgrouping.nonempty st hmem
  · exact absurd (List.map_eq_nil_iff.1 hnil) hsome

/-- Two paths of one module, from which a name is imported as it is and with an alias: both are
bound in one statement, and in whichever order they are given, the one without an alias comes
first. -/
theorem block_ordered_of_shared_specifier :
    let first : Import := ⟨⟨"Item", "./a"⟩, none⟩
    let second : Import := ⟨⟨"Item", "./x/../a"⟩, some "Other"⟩
    let table : RenameTable := ⟨[⟨second.symbol, "Other", first.symbol⟩]⟩
    let text (imports : List Import) :=
      Token.render table (({} : Writer).write (block [] "store.ts" imports).items).tokens
    text [first, second] = "import \x7b Item, Item as Other \x7d from './a';\n" ∧
      text [second, first] = text [first, second] := by
  intro first second table text
  have hmodules : ∀ i ∈ [first, second], i.symbol.module ≠ Path.localMark := by decide
  have haliases : ∀ i ∈ [first, second], i.newName = table.aliasOf? i.symbol := by decide
  have hplaced : [first, second].mapM (placed [] "store.ts") =
      .ok [("./a", first), ("./a", second)] := by decide +kernel
  -- Both lists are in order already, so that they need not be sorted.
  have hspecifiers : specifiers [("./a", first), ("./a", second)] = ["./a"] :=
    List.mergeSort_of_pairwise (by decide +kernel)
  have hat : placedAt "./a" [("./a", first), ("./a", second)] = [first, second] := by decide
  have hsorted : [first, second].mergeSort precedes = [first, second] :=
    List.mergeSort_of_pairwise (by decide +kernel)
  have hblock : block [] "store.ts" [first, second] =
      .ofList (statementPieces "./a" [first.symbol, second.symbol]) := by
    rw [block_eq_ofList hplaced, hspecifiers, List.flatMap_singleton, hat, boundSymbols, hsorted]
    rfl
  have htext : text [first, second] = "import \x7b Item, Item as Other \x7d from './a';\n" := by
    simp only [text, hblock]
    decide +kernel
  exact ⟨htext, (block_ordered hmodules).2 table haliases _ (.swap _ _ _) _⟩

end Import

end ModuleAssembly
