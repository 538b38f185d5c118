import Mathlib.Data.List.Basic
import Mathlib.Data.List.Induction
import ModuleAssembly.Path
import ModuleAssembly.Proofs.Text.Cut

/-!
# Segments of paths

A path has its segments between its slashes, so it is its segments with slashes between them
(`Path.intercalate_segments`), and names without slashes are the segments of the path that they make
(`Path.segments_intercalate`). Paths are resolved segment by segment: names are added
(`Path.resolve_names`), and as many steps back as there were names take these away
(`Path.resolve_back`).
-/

namespace ModuleAssembly

namespace Path

/-! ## Text and segments -/

/-- A path is its segments with slashes between them. -/
theorem intercalate_segments (path : String) :
    String.intercalate "/" (segments path) = path :=
  Text.intercalate_parts '/' path

/-- Paths with the same segments are the same. -/
theorem segments_injective : Function.Injective segments := by
  intro p q h
  rw [← intercalate_segments p, h, intercalate_segments q]

/-- A segment has no slash. -/
theorem not_mem_of_mem_segments {path segment : String} (h : segment ∈ segments path) :
    '/' ∉ segment.toList :=
  Text.not_mem_of_mem_parts h

/-- Names without slashes are the segments of the path that they make. -/
theorem segments_intercalate {names : List String} (hnames : names ≠ [])
    (hplain : ∀ name ∈ names, '/' ∉ name.toList) :
    segments (String.intercalate "/" names) = names :=
  Text.parts_intercalate hnames hplain

/-- A path after a name and a slash has one segment more. -/
theorem segments_name_append (name : String) (hname : '/' ∉ name.toList) (path : String) :
    segments (name ++ "/" ++ path) = name :: segments path := by
  have hparts : segments (name ++ "/" ++ path) = segments name ++ segments path :=
    Text.parts_append '/' name path
  have hone : segments name = [name] := Text.parts_eq_singleton hname
  rw [hparts, hone, List.singleton_append]

/-! ## Resolving -/

/-- Segments are resolved one list after the other. -/
theorem resolve_append (base xs ys : List String) :
    resolve base (xs ++ ys) = resolve (resolve base xs) ys :=
  List.foldl_append

/-- Whether a segment is the name of a file or a directory. -/
def IsName (segment : String) : Prop :=
  segment ≠ "" ∧ segment ≠ "." ∧ segment ≠ ".."

instance (segment : String) : Decidable (IsName segment) :=
  inferInstanceAs (Decidable (segment ≠ "" ∧ segment ≠ "." ∧ segment ≠ ".."))

/-- A name is added. -/
theorem step_name {segment : String} (h : IsName segment) (resolved : List String) :
    step resolved segment = resolved ++ [segment] := by
  obtain ⟨hempty, hpoint, hback⟩ := h
  rw [step, if_neg (not_or.2 ⟨hempty, hpoint⟩), if_neg hback]

/-- Names are added. -/
theorem resolve_names {names : List String} (h : ∀ name ∈ names, IsName name)
    (base : List String) : resolve base names = base ++ names := by
  induction names generalizing base with
  | nil => exact (List.append_nil base).symm
  | cons name names ih =>
    have hfirst : resolve base (name :: names) = resolve (step base name) names := rfl
    rw [hfirst, step_name (h name List.mem_cons_self),
      ih fun n hn => h n (List.mem_cons_of_mem _ hn),
      List.append_assoc, List.singleton_append]

/-- Steps back take the last components away. -/
theorem resolve_back (base below : List String) :
    resolve (base ++ below) (List.replicate below.length "..") = base := by
  induction below using List.reverseRecOn with
  | nil => exact List.append_nil base
  | append_singleton below name ih =>
    have hstep : step (base ++ (below ++ [name])) ".." = base ++ below := by
      rw [← List.append_assoc]
      exact List.dropLast_concat
    have hfirst : resolve (base ++ (below ++ [name]))
        (List.replicate (below.length + 1) "..") =
          resolve (step (base ++ (below ++ [name])) "..") (List.replicate below.length "..") := rfl
    rw [List.length_append, List.length_singleton, hfirst, hstep, ih]

end Path

end ModuleAssembly
