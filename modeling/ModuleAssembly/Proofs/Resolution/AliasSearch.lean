import ModuleAssembly.Proofs.Association
import ModuleAssembly.Proofs.Resolution.Numbering

/-!
# The search for an alias

An alias is searched for in rounds. A round gives out the next number of the name and ends the
search if the alias with this number is not taken (`SeenNames.tryNext`); otherwise the search goes
on from the names and numbers that the round leaves (`SeenNames.Finds`). Every search ends, after at
most one round more than there are names taken, and finds what `SeenNames.nextAlias` gives
(`SeenNames.finds_iff`, `SeenNames.freeIndex_le`).

The names of a file change by calls that bind a name or give out a number. A call leaves no counter
behind the number it gives out and sets none back (`SeenNames.Call.counter_le_apply`), so the
numbers of one name increase along any calls (`SeenNames.pairwise_issued`).
-/

namespace ModuleAssembly.SeenNames

/-! ## Rounds -/

/-- A round of the search: it gives out the next number of a name, and finds the alias with this
number unless it is taken. -/
def tryNext (s : SeenNames) (name suffix : String) : Option String × SeenNames :=
  let (k, t) := s.nextIndex name
  (if t.isBound (numbered name suffix k) then none else some (numbered name suffix k), t)

/-- `Finds name suffix s rounds (found, t)`: the search that starts from `s` ends after a number of
rounds, with an alias and with the names and numbers that are left. A search that goes on for ever
finds nothing. -/
inductive Finds (name suffix : String) : SeenNames → Nat → String × SeenNames → Prop where
  /-- The last round finds an alias. -/
  | found {s t : SeenNames} {result : String} (hround : s.tryNext name suffix = (some result, t)) :
      Finds name suffix s 1 (result, t)
  /-- A round that finds nothing comes before the others. -/
  | again {s t : SeenNames} {rounds : Nat} {result : String × SeenNames}
      (hround : s.tryNext name suffix = (none, t)) (hrest : Finds name suffix t rounds result) :
      Finds name suffix s (rounds + 1) result

variable {name suffix : String}

/-- A round gives out one number more than the last. -/
theorem tryNext_eq (s : SeenNames) (name suffix : String) :
    s.tryNext name suffix =
      (if s.isBound (numbered name suffix (s.counter name + 1)) then none
        else some (numbered name suffix (s.counter name + 1)),
        s.setCounter name (s.counter name + 1)) :=
  rfl

/-- A round finds nothing if the alias with its number is taken. -/
theorem tryNext_of_mem {s : SeenNames}
    (h : numbered name suffix (s.counter name + 1) ∈ s.names) :
    s.tryNext name suffix = (none, s.setCounter name (s.counter name + 1)) := by
  rw [tryNext_eq, if_pos ((s.isBound_iff _).2 h)]

/-- A round finds the alias with its number if that is not taken. -/
theorem tryNext_of_notMem {s : SeenNames}
    (h : numbered name suffix (s.counter name + 1) ∉ s.names) :
    s.tryNext name suffix = (some (numbered name suffix (s.counter name + 1)),
      s.setCounter name (s.counter name + 1)) := by
  rw [tryNext_eq, if_neg (mt (s.isBound_iff _).1 h)]

/-- A search has one end. -/
theorem Finds.unique {s : SeenNames} {m n : Nat} {r q : String × SeenNames}
    (h : Finds name suffix s m r) (h' : Finds name suffix s n q) : m = n ∧ r = q := by
  induction h generalizing n q with
  | found hround =>
    cases h' with
    | found hround' =>
      rw [hround] at hround'
      simpa using hround'
    | again hround' => simp [hround] at hround'
  | again hround _ ih =>
    cases h' with
    | found hround' => simp [hround] at hround'
    | again hround' hrest' =>
      obtain rfl := (Prod.mk.inj (hround.symm.trans hround')).2
      obtain ⟨rfl, rfl⟩ := ih hrest'
      exact ⟨rfl, rfl⟩

/-- A number that is recorded at once after another replaces it. -/
theorem setCounter_setCounter (s : SeenNames) (name : String) (j k : Nat) :
    (s.setCounter name j).setCounter name k = s.setCounter name k := by
  simp only [setCounter, Association.insert_insert]

/-- If the next aliases are taken and the one after them is not, the search ends there. -/
theorem finds_of_taken {s : SeenNames} {taken : Nat}
    (htaken : ∀ k, s.counter name < k → k ≤ s.counter name + taken →
      numbered name suffix k ∈ s.names)
    (hfree : numbered name suffix (s.counter name + taken + 1) ∉ s.names) :
    Finds name suffix s (taken + 1) (numbered name suffix (s.counter name + taken + 1),
      s.setCounter name (s.counter name + taken + 1)) := by
  induction taken generalizing s with
  | zero => exact .found (tryNext_of_notMem hfree)
  | succ taken ih =>
    have hround := tryNext_of_mem (htaken (s.counter name + 1) (by omega) (by omega))
    -- After the round the counter is one ahead, and one alias fewer stands in the way.
    generalize ht : s.setCounter name (s.counter name + 1) = t at hround
    have hcounter : t.counter name = s.counter name + 1 := by
      rw [← ht, counter_setCounter, if_pos rfl]
    have hnames : t.names = s.names := by rw [← ht]; rfl
    have hnumber : t.counter name + taken + 1 = s.counter name + (taken + 1) + 1 := by omega
    have hrest := ih (s := t)
      (fun k hlt hle => hnames ▸ htaken k (by omega) (by omega))
      (by rw [hnumber, hnames]; exact hfree)
    rw [hnumber, ← ht, setCounter_setCounter, ht] at hrest
    exact .again hround hrest

/-- The search from any names and numbers ends in one way, with what `nextAlias` gives. -/
theorem finds_iff (s : SeenNames) (rounds : Nat) (result : String × SeenNames) :
    Finds name suffix s rounds result ↔
      rounds = s.freeIndex name suffix - s.counter name ∧ result = s.nextAlias name suffix := by
  obtain ⟨⟨hlt, hfree⟩, hleast⟩ := s.freeIndex_isLeast name suffix
  obtain ⟨taken, hk⟩ := Nat.exists_eq_add_of_lt hlt
  have htaken : ∀ k, s.counter name < k → k ≤ s.counter name + taken →
      numbered name suffix k ∈ s.names := by
    intro k hcounter hle
    by_contra hnot
    have := hleast ⟨hcounter, hnot⟩
    omega
  have hfinds := finds_of_taken htaken (hk ▸ hfree)
  rw [← hk] at hfinds
  have hrounds : taken + 1 = s.freeIndex name suffix - s.counter name := by omega
  constructor
  · intro h
    obtain ⟨rfl, rfl⟩ := h.unique hfinds
    exact ⟨hrounds, rfl⟩
  · rintro ⟨rfl, rfl⟩
    exact hrounds ▸ hfinds

/-- The number found is at most one more than there are names taken above the last one. -/
theorem freeIndex_le (s : SeenNames) (name suffix : String) :
    s.freeIndex name suffix ≤ s.counter name + (s.names.eraseDups.length + 1) := by
  obtain ⟨k, hk, hfree⟩ :=
    exists_mem_range'_numbered_not_mem s.names.eraseDups name suffix (s.counter name + 1)
  rw [List.mem_range'_1] at hk
  rw [List.mem_eraseDups] at hfree
  have hle := (s.freeIndex_isLeast name suffix).2 ⟨by omega, hfree⟩
  omega

/-! ## Calls -/

/-- What may be asked of the names of a file. -/
inductive Call where
  /-- To give a name to a symbol. -/
  | bind (name : String) (symbol : Symbol)
  /-- To give out the next number of a name. -/
  | takeNumber (name : String)
  /-- To give out the next alias of a name. -/
  | takeAlias (name suffix : String)

namespace Call

/-- The names and numbers after a call. -/
def apply (s : SeenNames) : Call → SeenNames
  | .bind name symbol => s.bind name symbol
  | .takeNumber name => (s.nextIndex name).2
  | .takeAlias name suffix => (s.nextAlias name suffix).2

/-- The number that a call gives out, after the name it is for. -/
def issued? (s : SeenNames) : Call → Option (String × Nat)
  | .bind _ _ => none
  | .takeNumber name => some (name, (s.nextIndex name).1)
  | .takeAlias name suffix => some (name, s.freeIndex name suffix)

/-- The name that a call binds. -/
def boundName? : Call → Option String
  | .bind name _ => some name
  | .takeNumber _ | .takeAlias _ _ => none

/-- A call that gives out a number records it, and the number is above the last one. -/
theorem counter_of_issued {s : SeenNames} {c : Call} {k : Nat}
    (h : c.issued? s = some (name, k)) : s.counter name < k ∧ (c.apply s).counter name = k := by
  cases c with
  | bind other symbol => cases h
  | takeNumber other =>
    obtain ⟨rfl, rfl⟩ := Prod.mk.inj (Option.some.inj h)
    exact ⟨Nat.lt_succ_self _, by rw [apply, nextIndex, counter_setCounter, if_pos rfl]⟩
  | takeAlias other suffix =>
    obtain ⟨rfl, rfl⟩ := Prod.mk.inj (Option.some.inj h)
    exact ⟨(s.freeIndex_isLeast other suffix).1.1,
      by rw [apply, nextAlias, counter_setCounter, if_pos rfl]⟩

/-- A call changes only the counter of the name that it gives out a number for. -/
theorem counter_apply_of_ne {s : SeenNames} {c : Call}
    (h : ∀ k, c.issued? s ≠ some (name, k)) : (c.apply s).counter name = s.counter name := by
  cases c with
  | bind other symbol => rfl
  | takeNumber other =>
    have hne : name ≠ other := by rintro rfl; exact h _ rfl
    rw [apply, nextIndex, counter_setCounter, if_neg hne]
  | takeAlias other suffix =>
    have hne : name ≠ other := by rintro rfl; exact h _ rfl
    rw [apply, nextAlias, counter_setCounter, if_neg hne]

/-- No call sets a counter back. -/
theorem counter_le_apply (s : SeenNames) (c : Call) (name : String) :
    s.counter name ≤ (c.apply s).counter name := by
  by_cases h : ∃ k, c.issued? s = some (name, k)
  · obtain ⟨k, hk⟩ := h
    obtain ⟨hlt, heq⟩ := counter_of_issued hk
    omega
  · exact Nat.le_of_eq (counter_apply_of_ne fun k hk => h ⟨k, hk⟩).symm

/-- The names taken after a call are those before it and the one it binds. -/
theorem mem_names_apply (s : SeenNames) (c : Call) (x : String) :
    x ∈ (c.apply s).names ↔ x ∈ s.names ∨ c.boundName? = some x := by
  cases c with
  | bind other symbol =>
    have hbind : (s.bind other symbol).holder? x =
        if x == other then some symbol else s.holder? x := Association.lookup_insert ..
    rw [apply, boundName?, ← not_iff_not, ← holder?_eq_none_iff, hbind, not_or,
      ← holder?_eq_none_iff]
    by_cases hx : x = other
    · simp [hx]
    · simp [hx, Ne.symm hx]
  | takeNumber other =>
    have hnames : (apply s (.takeNumber other)).names = s.names := rfl
    simp [hnames, boundName?]
  | takeAlias other suffix =>
    have hnames : (apply s (.takeAlias other suffix)).names = s.names := rfl
    simp [hnames, boundName?]

end Call

/-- The names and numbers after calls. -/
def after (s : SeenNames) (calls : List Call) : SeenNames :=
  calls.foldl Call.apply s

/-- The numbers that calls give out, each after the name it is for. -/
def issued (s : SeenNames) : List Call → List (String × Nat)
  | [] => []
  | c :: calls => (c.issued? s).toList ++ (c.apply s).issued calls

/-- The numbers that calls give out are above the last one of their name. -/
theorem counter_lt_of_mem_issued {s : SeenNames} {calls : List Call} {k : Nat}
    (h : (name, k) ∈ s.issued calls) : s.counter name < k := by
  induction calls generalizing s with
  | nil => cases h
  | cons c calls ih =>
    rcases List.mem_append.1 h with hfirst | hrest
    · exact (Call.counter_of_issued (Option.mem_toList.1 hfirst)).1
    · exact Nat.lt_of_le_of_lt (c.counter_le_apply s name) (ih hrest)

/-- The numbers that calls give out for one name increase. -/
theorem pairwise_issued (s : SeenNames) (calls : List Call) :
    (s.issued calls).Pairwise fun a b => a.1 = b.1 → a.2 < b.2 := by
  induction calls generalizing s with
  | nil => exact .nil
  | cons c calls ih =>
    refine List.pairwise_append.2 ⟨?_, ih _, ?_⟩
    · cases c.issued? s with
      | none => exact .nil
      | some issue => exact List.pairwise_singleton _ _
    · rintro ⟨name, k⟩ hfirst ⟨other, later⟩ hrest rfl
      -- The counter holds the first number when the later ones are given out.
      have hcounter := (Call.counter_of_issued (Option.mem_toList.1 hfirst)).2
      exact hcounter ▸ counter_lt_of_mem_issued hrest

/-- The names taken after calls are those before them and the ones that they bind. -/
theorem mem_names_after (s : SeenNames) (calls : List Call) (x : String) :
    x ∈ (s.after calls).names ↔ x ∈ s.names ++ calls.filterMap Call.boundName? := by
  induction calls generalizing s with
  | nil => simp [after]
  | cons c calls ih =>
    have hafter : s.after (c :: calls) = (c.apply s).after calls := rfl
    rw [hafter, ih, List.mem_append, c.mem_names_apply, List.mem_append, or_assoc,
      List.filterMap_cons]
    cases c.boundName? with
    | none => simp
    | some bound => simp [eq_comm]

/-! ## The search along calls -/

/-- What the next alias of a name is: the one with the least number above the last that is not
taken. The counter of the name is set to this number, and nothing else changes. -/
structure IsNextAlias (s : SeenNames) (name suffix : String) (k : Nat)
    (result : String × SeenNames) : Prop where
  /-- The number is the least free one above the last. -/
  isLeast : IsLeast {j | s.counter name < j ∧ name ++ suffix ++ toString j ∉ s.names} k
  /-- The alias is the name with the suffix and the number. -/
  alias_eq : result.1 = name ++ suffix ++ toString k
  /-- The number is recorded for the name, and no other counter changes. -/
  counters_eq : ∀ other, result.2.counters.lookup other =
    if other = name then some k else s.counters.lookup other
  /-- No name is bound. -/
  bound_eq : result.2.bound = s.bound

/-- What `nextAlias` gives is the next alias, with the least free number. -/
theorem isNextAlias_nextAlias (s : SeenNames) (name suffix : String) :
    IsNextAlias s name suffix (s.freeIndex name suffix) (s.nextAlias name suffix) where
  isLeast := s.freeIndex_isLeast name suffix
  alias_eq := rfl
  counters_eq other := by
    rw [nextAlias, setCounter, Association.lookup_insert]
    simp only [beq_iff_eq]
  bound_eq := rfl

/-- Whatever names are taken and numbers given out, the search for an alias ends, after at most one
round more than there are names taken, and in one way, with the next alias. Along calls that bind
names and give out numbers and aliases the numbers of each name increase, and the next alias is none
of the names that were bound at first or by these calls. -/
theorem search_ends (s : SeenNames) :
    (∀ name suffix, ∃ rounds ≤ s.names.eraseDups.length + 1,
      (∀ n result, Finds name suffix s n result ↔
        n = rounds ∧ result = s.nextAlias name suffix) ∧
      IsNextAlias s name suffix (s.freeIndex name suffix) (s.nextAlias name suffix)) ∧
    ∀ calls, ((s.issued calls).Pairwise fun a b => a.1 = b.1 → a.2 < b.2) ∧
      ∀ name suffix, ((s.after calls).nextAlias name suffix).1 ∉
        s.names ++ calls.filterMap Call.boundName? := by
  refine ⟨fun name suffix => ?_, fun calls => ⟨s.pairwise_issued calls, fun name suffix => ?_⟩⟩
  · have hle := s.freeIndex_le name suffix
    exact ⟨s.freeIndex name suffix - s.counter name, by omega, s.finds_iff,
      s.isNextAlias_nextAlias name suffix⟩
  · rw [← mem_names_after]
    exact ((s.after calls).freeIndex_isLeast name suffix).1.2

/-- A search among names of which two stand in the way, and the numbers given out after it. -/
theorem search_ends_of_two_taken :
    let s : SeenNames :=
      { bound := [("A", ⟨"A", "m"⟩), ("A1", ⟨"A1", "m"⟩), ("A2", ⟨"A2", "m"⟩)]
        counters := [("B", 4)] }
    let calls : List Call :=
      [.takeAlias "A" "", .bind "A3" ⟨"A", "n"⟩, .takeNumber "A", .takeAlias "A" ""]
    Finds "A" "" s 3 ("A3", { s with counters := [("B", 4), ("A", 3)] }) ∧
      3 ≤ s.names.eraseDups.length + 1 ∧ s.issued calls = [("A", 3), ("A", 4), ("A", 5)] ∧
      (s.issued calls).Pairwise (fun a b => a.1 = b.1 → a.2 < b.2) ∧
      ((s.after calls).nextAlias "A" "").1 = "A6" ∧
      ((s.after calls).nextAlias "A" "").1 ∉ ["A", "A1", "A2", "A3"] := by
  intro s calls
  obtain ⟨hsearch, hcalls⟩ := search_ends s
  obtain ⟨rounds, hle, hfinds, -⟩ := hsearch "A" ""
  have hnext : s.nextAlias "A" "" = ("A3", { s with counters := [("B", 4), ("A", 3)] }) := by
    decide +kernel
  have hthree : rounds = 3 := by
    have hrounds := ((s.finds_iff 3 _).2 ⟨by decide +kernel, rfl⟩ : Finds "A" "" s 3 _)
    exact ((hfinds 3 _).1 hrounds).1.symm
  obtain ⟨hissued, hfree⟩ := hcalls calls
  exact ⟨(hfinds 3 _).2 ⟨hthree.symm, hnext.symm⟩, hthree ▸ hle, by decide +kernel, hissued,
    by decide +kernel, hfree "A" ""⟩

end ModuleAssembly.SeenNames
