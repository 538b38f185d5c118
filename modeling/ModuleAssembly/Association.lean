/-!
# Ordered associations

Lists of keys and values in which a key stands at most once. `insert` gives a key its value: in the
place the key already has, or else at the end. `lookup` is that of lists, and `insertNew` leaves a
key that is there alone.
-/

namespace ModuleAssembly.Association

variable {κ ν : Type} [BEq κ]

/-- Whether a key has a value. -/
def contains (entries : List (κ × ν)) (key : κ) : Bool :=
  entries.any (·.1 == key)

/-- The association in which `key` has `value`. -/
def insert (entries : List (κ × ν)) (key : κ) (value : ν) : List (κ × ν) :=
  if contains entries key then
    entries.map fun entry => if entry.1 == key then (entry.1, value) else entry
  else entries ++ [(key, value)]

/-- The association in which `key` has the value it had, or `value` if it had none. -/
def insertNew (entries : List (κ × ν)) (key : κ) (value : ν) : List (κ × ν) :=
  if contains entries key then entries else entries ++ [(key, value)]

/-- The association that gives each key its last value. -/
def ofList (pairs : List (κ × ν)) : List (κ × ν) :=
  pairs.foldl (fun entries pair => insert entries pair.1 pair.2) []

/-- A key is contained exactly when looking it up gives a value. -/
theorem contains_eq_isSome_lookup [LawfulBEq κ] (entries : List (κ × ν)) (key : κ) :
    contains entries key = (entries.lookup key).isSome := by
  induction entries with
  | nil => rfl
  | cons entry entries ih =>
    obtain ⟨k, v⟩ := entry
    have hcons : contains ((k, v) :: entries) key = (k == key || contains entries key) := rfl
    rw [hcons, List.lookup_cons, BEq.comm (a := k)]
    cases h : key == k with
    | true => rfl
    | false => simpa [h] using ih

/-- Looking up a key after its value was replaced gives the value, if the key was there. -/
theorem lookup_map_replace [LawfulBEq κ] (entries : List (κ × ν)) (key k : κ) (value : ν) :
    (entries.map fun entry => if entry.1 == key then (entry.1, value) else entry).lookup k =
      if k == key then (entries.lookup k).map fun _ => value else entries.lookup k := by
  induction entries with
  | nil => simp
  | cons entry entries ih =>
    obtain ⟨k', v⟩ := entry
    grind

/-- After `insert`, the key has the new value and every other key the one it had. -/
theorem lookup_insert [LawfulBEq κ] (entries : List (κ × ν)) (key k : κ) (value : ν) :
    (insert entries key value).lookup k = if k == key then some value else entries.lookup k := by
  unfold insert
  cases h : contains entries key with
  | true =>
    rw [contains_eq_isSome_lookup] at h
    simp only [if_true, lookup_map_replace]
    cases hk : k == key with
    | true =>
      rw [LawfulBEq.eq_of_beq hk]
      obtain ⟨v, hv⟩ := Option.isSome_iff_exists.1 h
      simp [hv]
    | false => rfl
  | false =>
    rw [contains_eq_isSome_lookup, Option.isSome_eq_false_iff, Option.isNone_iff_eq_none] at h
    rw [if_neg (by simp), List.lookup_append, List.lookup_cons]
    cases hk : k == key with
    | true => simp [LawfulBEq.eq_of_beq hk, h]
    | false => simp

end ModuleAssembly.Association
