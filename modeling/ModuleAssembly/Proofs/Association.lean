import Mathlib.Data.List.Induction
import Mathlib.Data.List.Nodup
import ModuleAssembly.Association

/-!
# Associations of pairs

`ofList` gives each key its last value (`lookup_ofList`). So what it finds is one of the pairs, and
it finds something for the key of every pair. Pairs whose keys differ are left as they are
(`ofList_eq_self`).
-/

namespace ModuleAssembly.Association

variable {κ ν : Type} [BEq κ] [LawfulBEq κ]

omit [LawfulBEq κ] in
/-- One more pair is one more insertion. -/
theorem ofList_concat (pairs : List (κ × ν)) (pair : κ × ν) :
    ofList (pairs ++ [pair]) = insert (ofList pairs) pair.1 pair.2 := by
  simp [ofList]

/-- Looking up a key gives its last value. -/
theorem lookup_ofList (pairs : List (κ × ν)) (key : κ) :
    (ofList pairs).lookup key = pairs.reverse.lookup key := by
  induction pairs using List.reverseRecOn with
  | nil => rfl
  | append_singleton pairs pair ih =>
    rw [ofList_concat, lookup_insert, List.reverse_append, List.reverse_singleton,
      List.singleton_append, List.lookup_cons, ih]
    cases h : key == pair.1 with
    | true => rfl
    | false => rfl

/-- A value that is replaced at once leaves no trace. -/
theorem insert_insert (entries : List (κ × ν)) (key : κ) (first last : ν) :
    insert (insert entries key first) key last = insert entries key last := by
  have hthere : contains (insert entries key first) key = true := by
    rw [contains_eq_isSome_lookup, lookup_insert, if_pos (beq_self_eq_true key)]
    rfl
  rw [insert, if_pos hthere, insert, insert]
  cases h : contains entries key with
  | true =>
    -- The key keeps its place, and its entry is replaced twice.
    rw [if_pos rfl, if_pos rfl, List.map_map]
    refine List.map_congr_left fun entry _ => ?_
    by_cases hkey : entry.1 == key
    · simp [hkey]
    · simp [hkey]
  | false =>
    have hother : ∀ entry ∈ entries, ¬ (entry.1 == key) = true := by
      simpa [contains] using h
    have hkept : (entries.map fun entry => if entry.1 == key then (entry.1, last) else entry) =
        entries := by
      rw [List.map_congr_left fun entry hentry => if_neg (hother entry hentry), List.map_id']
    rw [if_neg Bool.false_ne_true, if_neg Bool.false_ne_true, List.map_append, hkept]
    simp

/-- Looking up a key in pairs made of a list finds the first element whose key it is. -/
theorem lookup_map {α : Type} (f : α → κ × ν) (xs : List α) (key : κ) :
    (xs.map f).lookup key = (xs.find? fun x => (f x).1 == key).map fun x => (f x).2 := by
  induction xs with
  | nil => rfl
  | cons x xs ih =>
    rw [List.map_cons, List.lookup_cons, List.find?_cons, BEq.comm, ih]
    cases (f x).1 == key with
    | true => rfl
    | false => rfl

/-- A value that is found stands in one of the pairs. -/
theorem mem_of_lookup {pairs : List (κ × ν)} {key : κ} {value : ν}
    (h : pairs.lookup key = some value) : (key, value) ∈ pairs := by
  obtain ⟨before, after, rfl, -⟩ := List.lookup_eq_some_iff.1 h
  exact List.mem_append_right _ List.mem_cons_self

/-- So it does in one of the pairs that an association is made of. -/
theorem mem_of_lookup_ofList {pairs : List (κ × ν)} {key : κ} {value : ν}
    (h : (ofList pairs).lookup key = some value) : (key, value) ∈ pairs := by
  rw [lookup_ofList] at h
  exact List.mem_reverse.1 (mem_of_lookup h)

/-- A key is found exactly if it stands in one of the pairs. -/
theorem isSome_lookup_ofList (pairs : List (κ × ν)) (key : κ) :
    ((ofList pairs).lookup key).isSome = true ↔ key ∈ pairs.map (·.1) := by
  rw [lookup_ofList, ← contains_eq_isSome_lookup]
  simp [contains]

/-- Pairs of different keys are an association already. -/
theorem ofList_eq_self {pairs : List (κ × ν)} (h : (pairs.map (·.1)).Nodup) :
    ofList pairs = pairs := by
  induction pairs using List.reverseRecOn with
  | nil => rfl
  | append_singleton pairs pair ih =>
    rw [List.map_append, List.map_singleton, List.nodup_append] at h
    obtain ⟨hpairs, -, hnew⟩ := h
    have hfree : contains pairs pair.1 = false := by
      rw [← Bool.not_eq_true]
      intro hcontains
      simp only [contains, List.any_eq_true, beq_iff_eq] at hcontains
      obtain ⟨entry, hentry, hkey⟩ := hcontains
      exact hnew _ (List.mem_map_of_mem hentry) _ (List.mem_singleton_self _) hkey
    rw [ofList_concat, ih hpairs, insert, hfree]
    rfl

/-- Of pairs whose keys differ each is found. -/
theorem lookup_eq_some_iff_mem {pairs : List (κ × ν)} (h : (pairs.map (·.1)).Nodup) {key : κ}
    {value : ν} : pairs.lookup key = some value ↔ (key, value) ∈ pairs := by
  constructor
  · exact mem_of_lookup
  · intro hmem
    obtain ⟨before, after, rfl⟩ := List.append_of_mem hmem
    refine List.lookup_eq_some_iff.2 ⟨before, after, rfl, fun pair hpair => ?_⟩
    -- An earlier pair has another key.
    rw [List.map_append, List.nodup_append] at h
    have hother := h.2.2 _ (List.mem_map_of_mem hpair) key List.mem_cons_self
    simpa using hother.symm

/-- So they are in the association made of them. -/
theorem lookup_ofList_eq_some_iff {pairs : List (κ × ν)} (h : (pairs.map (·.1)).Nodup) {key : κ}
    {value : ν} : (ofList pairs).lookup key = some value ↔ (key, value) ∈ pairs := by
  rw [ofList_eq_self h, lookup_eq_some_iff_mem h]

end ModuleAssembly.Association
