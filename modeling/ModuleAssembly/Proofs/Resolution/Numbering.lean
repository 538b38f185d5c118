import Mathlib.Data.List.Nodup
import Mathlib.Data.List.Perm.Subperm
import Mathlib.Order.Bounds.Defs
import ModuleAssembly.Resolution

/-!
# Numbers in aliases

An alias is a name with a suffix and a number. Different numbers give different aliases
(`numbered_injective`), so of finitely many names taken only finitely many numbers are in the way:
there is a free number above any given one (`exists_free_number`), and `SeenNames.freeIndex`, which
tries one candidate more than there are names, finds the least (`freeIndex_isLeast`).
-/

namespace ModuleAssembly.SeenNames

/-- Different numbers have different decimal texts. -/
theorem toString_nat_injective : Function.Injective (toString : Nat → String) := by
  intro m n h
  have hdigits : Nat.toDigits 10 m = Nat.toDigits 10 n := by
    simpa [Nat.toString_eq_ofList_toDigits] using congrArg String.toList h
  -- Reading the digits gives the number back.
  have hvalue := congrArg (fun digits => Nat.ofDigitChars 10 digits 0) hdigits
  simpa using hvalue

/-- A decimal text has at least one digit. -/
theorem toString_nat_ne_empty (n : Nat) : toString n ≠ "" := by
  intro h
  have hlist : Nat.toDigits 10 n = [] := by
    simpa [Nat.toString_eq_ofList_toDigits] using congrArg String.toList h
  exact Nat.toDigits_ne_nil hlist

/-- The aliases of a name with different numbers are different. -/
theorem numbered_injective (name suffix : String) : Function.Injective (numbered name suffix) := by
  intro m n h
  have hlist := congrArg String.toList h
  simp only [numbered, String.toList_append] at hlist
  exact toString_nat_injective (String.toList_inj.1 (List.append_cancel_left hlist))

/-- An alias is not empty, since it ends in a number. -/
theorem numbered_ne_empty (name suffix : String) (k : Nat) : numbered name suffix k ≠ "" := by
  intro h
  have hlist := congrArg String.toList h
  simp only [numbered, String.toList_append, String.toList_empty, List.append_eq_nil_iff] at hlist
  exact toString_nat_ne_empty k (String.toList_inj.1 hlist.2)

/-- Of one more candidate in a row than there are names, the alias of one is none of them. -/
theorem exists_mem_range'_numbered_not_mem (names : List String) (name suffix : String)
    (start : Nat) :
    ∃ k ∈ List.range' start (names.length + 1), numbered name suffix k ∉ names := by
  -- Otherwise the aliases of all candidates, which differ, would be among fewer names.
  by_contra! hall
  have hnodup : ((List.range' start (names.length + 1)).map (numbered name suffix)).Nodup :=
    List.Nodup.map (numbered_injective name suffix) (List.nodup_range' ..)
  have hsubset : (List.range' start (names.length + 1)).map (numbered name suffix) ⊆ names := by
    intro a ha
    obtain ⟨k, hk, rfl⟩ := List.mem_map.1 ha
    exact hall k hk
  have hlength := (hnodup.subperm hsubset).length_le
  rw [List.length_map, List.length_range'] at hlength
  omega

/-- Above every number there is one whose alias is not among the names. -/
theorem exists_free_number (names : List String) (name suffix : String) (last : Nat) :
    ∃ k, last < k ∧ numbered name suffix k ∉ names := by
  obtain ⟨k, hk, hfree⟩ := exists_mem_range'_numbered_not_mem names name suffix (last + 1)
  exact ⟨k, by simp at hk; omega, hfree⟩

/-- The names that are taken. -/
def names (s : SeenNames) : List String :=
  s.bound.map (·.1)

/-- A name is taken exactly if it is among the names that are. -/
theorem isBound_iff (s : SeenNames) (name : String) : s.isBound name = true ↔ name ∈ s.names := by
  simp [isBound, Association.contains, names]

/-- A name has a holder exactly if it is taken. -/
theorem holder?_eq_none_iff (s : SeenNames) (name : String) :
    s.holder? name = none ↔ name ∉ s.names := by
  rw [← isBound_iff, isBound, Association.contains_eq_isSome_lookup, Option.isSome_iff_ne_none,
    not_not, holder?]

/-- The number of the next alias is the least one above the last whose alias is not taken. -/
theorem freeIndex_isLeast (s : SeenNames) (name suffix : String) :
    IsLeast {k | s.counter name < k ∧ numbered name suffix k ∉ s.names}
      (s.freeIndex name suffix) := by
  have hlength : s.names.length = s.bound.length := List.length_map _
  obtain ⟨j, hj, hfree⟩ :=
    exists_mem_range'_numbered_not_mem s.names name suffix (s.counter name + 1)
  rw [hlength] at hj
  -- The search finds a candidate, so the value that stands for a failed search is not used.
  cases hfind : (List.range' (s.counter name + 1) (s.bound.length + 1)).find?
      fun k => !s.isBound (numbered name suffix k) with
  | none =>
    have hbound := List.find?_eq_none.1 hfind j hj
    simp [isBound_iff, hfree] at hbound
  | some k =>
    have hk : s.freeIndex name suffix = k := by simp [freeIndex, hfind]
    obtain ⟨hp, hmem, hleast⟩ := List.find?_range'_eq_some.1 hfind
    simp only [Bool.not_eq_true', ← Bool.not_eq_true, isBound_iff, List.mem_range'_1] at hp hmem
    rw [hk]
    refine ⟨⟨by omega, hp⟩, ?_⟩
    -- A smaller number would be an earlier candidate, which the search found taken.
    rintro m ⟨hlast, hm⟩
    refine Nat.le_of_not_lt fun hlt => hm ?_
    have hbound := hleast m (by omega) hlt
    simpa [isBound_iff] using hbound

/-- Recording a number for a name changes the last number of that name alone. -/
theorem counter_setCounter (s : SeenNames) (name other : String) (k : Nat) :
    (s.setCounter name k).counter other = if other = name then k else s.counter other := by
  unfold counter setCounter
  rw [Association.lookup_insert]
  by_cases h : other = name
  · simp [h]
  · simp [h]

end ModuleAssembly.SeenNames
