import Mathlib.Data.List.Basic

/-!
# Separators

Lists and texts that are joined with a separator between them: all but the first come after a
separator each (`intercalate_cons_eq_flatMap`, `Text.intercalate_cons_eq_join`), and groups may be
joined first (`intercalate_append`, `intercalate_map_intercalate`).
-/

namespace ModuleAssembly

/-- The lists after the first follow a separator each. -/
theorem intercalate_cons_eq_flatMap {α : Type} (sep x : List α) (xs : List (List α)) :
    sep.intercalate (x :: xs) = x ++ xs.flatMap (sep ++ ·) := by
  induction xs generalizing x with
  | nil => simp
  | cons y ys ih =>
    rw [List.intercalate_cons_cons, ih, List.flatMap_cons, List.append_assoc, List.append_assoc]

/-- Lists with a separator between them, after others with a separator between them. -/
theorem intercalate_append {α : Type} (sep : List α) {xs ys : List (List α)} (hxs : xs ≠ [])
    (hys : ys ≠ []) :
    sep.intercalate (xs ++ ys) = sep.intercalate xs ++ sep ++ sep.intercalate ys := by
  obtain ⟨x, xs, rfl⟩ := List.exists_cons_of_ne_nil hxs
  obtain ⟨y, ys, rfl⟩ := List.exists_cons_of_ne_nil hys
  simp only [List.cons_append, intercalate_cons_eq_flatMap, List.flatMap_append,
    List.flatMap_cons, List.append_assoc]

/-- One separator between all lists, group after group. -/
theorem intercalate_map_intercalate {α : Type} (sep : List α) {xss : List (List (List α))}
    (h : ∀ xs ∈ xss, xs ≠ []) :
    sep.intercalate (xss.map sep.intercalate) = sep.intercalate xss.flatten := by
  induction xss with
  | nil => rfl
  | cons xs xss ih =>
    obtain ⟨hxs, hxss⟩ := List.forall_mem_cons.1 h
    cases xss with
    | nil => simp
    | cons ys xss =>
      have hys := (List.forall_mem_cons.1 hxss).1
      have hflat : (ys :: xss).flatten ≠ [] := by simp [hys]
      rw [List.map_cons, List.intercalate_cons_of_ne_nil (by simp), ih hxss,
        ← intercalate_append sep hxs hflat, ← List.flatten_cons]

/-- What is in neither the separator nor the lists is not in them together. -/
theorem not_mem_intercalate {α : Type} {a : α} {sep : List α} {xs : List (List α)}
    (hsep : a ∉ sep) (h : ∀ x ∈ xs, a ∉ x) : a ∉ sep.intercalate xs := by
  cases xs with
  | nil => exact List.not_mem_nil
  | cons x xs =>
    obtain ⟨hx, hxs⟩ := List.forall_mem_cons.1 h
    rw [intercalate_cons_eq_flatMap, List.mem_append, not_or]
    refine ⟨hx, fun ha => ?_⟩
    obtain ⟨y, hy, hay⟩ := List.mem_flatMap.1 ha
    rcases List.mem_append.1 hay with hay | hay
    · exact hsep hay
    · exact hxs y hy hay

/-- Texts with a text between them are the first and then each other one after that text. -/
theorem Text.intercalate_cons_eq_join (sep first : String) (others : List String) :
    String.intercalate sep (first :: others) = first ++ String.join (others.map (sep ++ ·)) := by
  induction others generalizing first with
  | nil => simp
  | cons next others ih =>
    rw [String.intercalate_cons_of_ne_nil (by simp), ih, List.map_cons, String.join_cons,
      String.append_assoc, String.append_assoc]

end ModuleAssembly
