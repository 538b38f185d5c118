import ModuleAssembly.Fault

/-!
# Output up to a fault

An `Output` holds what was produced, in order, and the fault that stopped the production, if one
did. What came before a fault stays: `append` goes on only after output without one, and
`flatMap` produces from each item in turn up to the first fault.
-/

namespace ModuleAssembly

/-- Items in order, and what stopped them. -/
structure Output (α : Type) where
  /-- What was produced. -/
  items : List α
  /-- Why no more was produced. -/
  fault : Option Fault
deriving Repr, DecidableEq

namespace Output

variable {α β : Type}

/-- Items without a fault. -/
def ofList (items : List α) : Output α :=
  ⟨items, none⟩

/-- No items. -/
def empty : Output α :=
  ofList []

/-- One item. -/
def single (item : α) : Output α :=
  ofList [item]

/-- No items, for a fault. -/
def stop (fault : Fault) : Output α :=
  ⟨[], some fault⟩

/-- The first output and, unless it was stopped, the second. -/
def append (a b : Output α) : Output α :=
  match a.fault with
  | none => ⟨a.items ++ b.items, b.fault⟩
  | some _ => a

instance : Append (Output α) :=
  ⟨append⟩

/-- One output after the other, up to the first that is stopped. -/
def concat (outputs : List (Output α)) : Output α :=
  outputs.foldr (· ++ ·) empty

/-- What the items produce, one after the other; then the fault that stopped the items. -/
def flatMap (a : Output α) (f : α → Output β) : Output β :=
  concat (a.items.map f) ++ ⟨[], a.fault⟩

/-- All items, or the fault. -/
def toExcept (a : Output α) : Except Fault (List α) :=
  match a.fault with
  | none => .ok a.items
  | some fault => .error fault

/-- Output without a fault goes on with what follows. -/
@[simp] theorem mk_none_append (items : List α) (b : Output α) :
    ⟨items, none⟩ ++ b = (⟨items ++ b.items, b.fault⟩ : Output α) :=
  rfl

/-- After a fault nothing follows. -/
@[simp] theorem mk_some_append (items : List α) (fault : Fault) (b : Output α) :
    ⟨items, some fault⟩ ++ b = (⟨items, some fault⟩ : Output α) :=
  rfl

/-- Nothing before an output changes nothing. -/
@[simp] theorem empty_append (a : Output α) : empty ++ a = a :=
  rfl

/-- Nothing after an output changes nothing. -/
@[simp] theorem append_empty (a : Output α) : a ++ empty = a := by
  obtain ⟨items, _ | fault⟩ := a
  · simp [empty, ofList]
  · rfl

/-- It does not matter how three outputs are put together. -/
theorem append_assoc (a b c : Output α) : a ++ b ++ c = a ++ (b ++ c) := by
  obtain ⟨items, _ | fault⟩ := a
  · obtain ⟨items', _ | fault'⟩ := b
    · simp
    · simp
  · rfl

/-- The items of two lists come one list after the other. -/
theorem ofList_append (xs ys : List α) : ofList (xs ++ ys) = ofList xs ++ ofList ys :=
  rfl

/-- A list of outputs gives the first and then the others. -/
@[simp] theorem concat_cons (a : Output α) (as : List (Output α)) :
    concat (a :: as) = a ++ concat as :=
  rfl

/-- Two lists of outputs give the first list's and then the second's. -/
theorem concat_append (as bs : List (Output α)) : concat (as ++ bs) = concat as ++ concat bs := by
  induction as with
  | nil => rfl
  | cons a as ih => rw [List.cons_append, concat_cons, ih, concat_cons, append_assoc]

end Output

end ModuleAssembly
