import Mathlib.Data.List.Basic
import ModuleAssembly.Text.Cut

/-!
# Parts between marks

Cutting text at a mark is splitting its characters there (`Text.map_toList_parts`). So a text is its
parts with marks between them (`Text.intercalate_parts`), texts without marks are the parts of the
text that they make (`Text.parts_intercalate`), and a mark between two texts divides their parts
(`Text.parts_append`).
-/

namespace ModuleAssembly.Text

/-! ## Parts of characters -/

/-- Cutting characters at a mark is splitting them there. -/
theorem partsAt_eq_splitOn (mark : Char) (cs : List Char) :
    partsAt mark cs = cs.splitOn mark := by
  induction cs with
  | nil => rfl
  | cons c cs ih =>
    rw [partsAt, List.splitOn_cons_eq_if_modifyHead, ih]
    by_cases hc : c = mark
    · rw [if_pos hc, if_pos (beq_iff_eq.2 hc)]
    · rw [if_neg hc, if_neg (mt beq_iff_eq.1 hc)]
      cases hrest : cs.splitOn mark with
      | nil => exact absurd hrest (List.splitOn_ne_nil mark cs)
      | cons part parts => rfl

/-- The parts between marks have no mark. -/
theorem not_mem_of_mem_partsAt {mark : Char} {cs part : List Char}
    (h : part ∈ partsAt mark cs) : mark ∉ part := by
  induction cs generalizing part with
  | nil =>
    rw [List.mem_singleton.1 h]
    exact List.not_mem_nil
  | cons c cs ih =>
    unfold partsAt at h
    split at h
    · rcases List.mem_cons.1 h with rfl | hrest
      · exact List.not_mem_nil
      · exact ih hrest
    · next hc =>
      split at h
      · next first parts hparts =>
        rw [hparts] at ih
        rcases List.mem_cons.1 h with rfl | hrest
        · exact List.not_mem_cons_of_ne_of_not_mem (Ne.symm hc) (ih List.mem_cons_self)
        · exact ih (List.mem_cons_of_mem first hrest)
      · rw [List.mem_singleton.1 h]
        exact List.not_mem_cons_of_ne_of_not_mem (Ne.symm hc) List.not_mem_nil

/-- There is a part in front of the first mark. -/
theorem exists_partsAt_eq (mark : Char) (cs : List Char) :
    ∃ first others, partsAt mark cs = first :: others := by
  rw [partsAt_eq_splitOn]
  exact List.exists_cons_of_ne_nil (List.splitOn_ne_nil mark cs)

/-- A mark ends an empty part. -/
theorem partsAt_mark (mark : Char) (cs : List Char) :
    partsAt mark (mark :: cs) = [] :: partsAt mark cs :=
  if_pos rfl

/-- Any other character is in the first part. -/
theorem partsAt_cons {mark c : Char} (hc : c ≠ mark) {cs first : List Char}
    {others : List (List Char)} (h : partsAt mark cs = first :: others) :
    partsAt mark (c :: cs) = (c :: first) :: others := by
  rw [partsAt, if_neg hc, h]

/-! ## Parts of texts -/

/-- The characters of the parts of a text are those between its marks. -/
theorem map_toList_parts (mark : Char) (s : String) :
    (parts mark s).map String.toList = s.toList.splitOn mark := by
  rw [parts, List.map_map, partsAt_eq_splitOn]
  simp [Function.comp_def]

/-- Texts are the parts of a text if their characters are those between its marks. -/
theorem parts_eq {mark : Char} {s : String} {texts : List String}
    (h : s.toList.splitOn mark = texts.map String.toList) : parts mark s = texts := by
  rw [← map_toList_parts] at h
  exact List.map_injective_iff.2 (fun _ _ => String.toList_inj.1) h

/-- A text has a part. -/
theorem parts_ne_nil (mark : Char) (s : String) : parts mark s ≠ [] := by
  obtain ⟨first, others, h⟩ := exists_partsAt_eq mark s.toList
  simp [parts, h]

/-- The parts of a text have no mark. -/
theorem not_mem_of_mem_parts {mark : Char} {s part : String} (h : part ∈ parts mark s) :
    mark ∉ part.toList := by
  obtain ⟨cs, hcs, rfl⟩ := List.mem_map.1 h
  rw [String.toList_ofList]
  exact not_mem_of_mem_partsAt hcs

/-- A text is its parts with marks between them. -/
theorem intercalate_parts (mark : Char) (s : String) :
    String.intercalate (String.singleton mark) (parts mark s) = s := by
  refine String.toList_inj.1 ?_
  rw [String.toList_intercalate, map_toList_parts, String.toList_singleton]
  exact List.intercalate_splitOn mark

/-- Texts without marks are the parts of the text that they make with marks between them. -/
theorem parts_intercalate {mark : Char} {texts : List String} (hne : texts ≠ [])
    (h : ∀ t ∈ texts, mark ∉ t.toList) :
    parts mark (String.intercalate (String.singleton mark) texts) = texts := by
  refine parts_eq ?_
  rw [String.toList_intercalate, String.toList_singleton]
  exact List.splitOn_intercalate mark (by simpa using h) (by simpa using hne)

/-- A mark between two texts divides their parts. -/
theorem parts_append (mark : Char) (s t : String) :
    parts mark (s ++ String.singleton mark ++ t) = parts mark s ++ parts mark t := by
  refine parts_eq ?_
  rw [String.toList_append, String.toList_append, String.toList_singleton, List.append_assoc,
    List.singleton_append, List.splitOn_append_cons_self, List.map_append, map_toList_parts,
    map_toList_parts]

/-- A text without a mark is its only part. -/
theorem parts_eq_singleton {mark : Char} {s : String} (h : mark ∉ s.toList) :
    parts mark s = [s] :=
  parts_eq (List.splitOn_eq_singleton h)

end ModuleAssembly.Text
