import Mathlib.Data.List.Forall2
import ModuleAssembly.Fault

/-!
# Results of steps that may fail

What has a result although it may fail at each of its steps has one at each of them: in two steps
(`Fault.exists_of_bind_eq_ok`), and for each element of a list (`Fault.exists_of_mem_results`,
`Fault.exists_result_of_mem`), in order (`Fault.forall₂_of_mapM_eq_ok`). What fails does so at a
step (`Fault.cases_of_bind_eq_error`, `Fault.exists_of_mapM_eq_error`).
-/

namespace ModuleAssembly.Fault

variable {ε α β : Type}

/-- A result of two steps comes from a result of the first. -/
theorem exists_of_bind_eq_ok {x : Except ε α} {f : α → Except ε β} {b : β}
    (h : (x >>= f) = .ok b) : ∃ a, x = .ok a ∧ f a = .ok b := by
  cases x with
  | error fault => cases h
  | ok a => exact ⟨a, rfl, h⟩

/-- What a function makes of a result comes from a result. -/
theorem exists_of_map_eq_ok {x : Except ε α} {f : α → β} {b : β} (h : x.map f = .ok b) :
    ∃ a, x = .ok a ∧ f a = b := by
  cases x with
  | error fault => cases h
  | ok a => exact ⟨a, rfl, Except.ok.inj h⟩

/-- A fault of two steps is one of the first, or of the second on the result of the first. -/
theorem cases_of_bind_eq_error {x : Except ε α} {f : α → Except ε β} {fault : ε}
    (h : (x >>= f) = .error fault) : x = .error fault ∨ ∃ a, x = .ok a ∧ f a = .error fault := by
  cases x with
  | error other => exact .inl (congrArg Except.error (Except.error.inj h))
  | ok a => exact .inr ⟨a, rfl, h⟩

/-- A function of results keeps a fault. -/
theorem eq_error_of_map_eq_error {x : Except ε α} {f : α → β} {fault : ε}
    (h : x.map f = .error fault) : x = .error fault := by
  cases x with
  | error other => exact congrArg Except.error (Except.error.inj h)
  | ok a => cases h

variable {f : α → Except ε β} {xs : List α} {ys : List β}

/-- A list with results has one for its first element, and others for the others. -/
theorem exists_of_mapM_cons_eq_ok {x : α} (h : (x :: xs).mapM f = .ok ys) :
    ∃ first others, f x = .ok first ∧ xs.mapM f = .ok others ∧ ys = first :: others := by
  rw [List.mapM_cons] at h
  obtain ⟨first, hfirst, hrest⟩ := exists_of_bind_eq_ok h
  obtain ⟨others, hothers, hcons⟩ := exists_of_bind_eq_ok hrest
  exact ⟨first, others, hfirst, hothers, (Except.ok.inj hcons).symm⟩

/-- Each result for a list is that for an element. -/
theorem exists_of_mem_results (h : xs.mapM f = .ok ys) {y : β} (hy : y ∈ ys) :
    ∃ x ∈ xs, f x = .ok y := by
  induction xs generalizing ys with
  | nil =>
    cases h
    cases hy
  | cons x xs ih =>
    obtain ⟨first, others, hx, hxs, rfl⟩ := exists_of_mapM_cons_eq_ok h
    rcases List.mem_cons.1 hy with rfl | hothers
    · exact ⟨x, List.mem_cons_self, hx⟩
    · obtain ⟨z, hz, hresult⟩ := ih hxs hothers
      exact ⟨z, List.mem_cons_of_mem x hz, hresult⟩

/-- Each element of a list with results has one of them. -/
theorem exists_result_of_mem (h : xs.mapM f = .ok ys) {x : α} (hx : x ∈ xs) :
    ∃ y ∈ ys, f x = .ok y := by
  induction xs generalizing ys with
  | nil => cases hx
  | cons z xs ih =>
    obtain ⟨first, others, hz, hxs, rfl⟩ := exists_of_mapM_cons_eq_ok h
    rcases List.mem_cons.1 hx with rfl | hmem
    · exact ⟨first, List.mem_cons_self, hz⟩
    · obtain ⟨y, hy, hresult⟩ := ih hxs hmem
      exact ⟨y, List.mem_cons_of_mem first hy, hresult⟩

/-- A fault for a list is one for an element. -/
theorem exists_of_mapM_eq_error {fault : ε} (h : xs.mapM f = .error fault) :
    ∃ x ∈ xs, f x = .error fault := by
  induction xs with
  | nil => cases h
  | cons x xs ih =>
    rw [List.mapM_cons] at h
    rcases cases_of_bind_eq_error h with hx | ⟨first, -, hrest⟩
    · exact ⟨x, List.mem_cons_self, hx⟩
    · rcases cases_of_bind_eq_error hrest with hxs | ⟨others, -, hcons⟩
      · obtain ⟨y, hy, hfault⟩ := ih hxs
        exact ⟨y, List.mem_cons_of_mem x hy, hfault⟩
      · cases hcons

/-- The results for a list are those for its elements, in order. -/
theorem forall₂_of_mapM_eq_ok (h : xs.mapM f = .ok ys) :
    List.Forall₂ (fun x y => f x = .ok y) xs ys := by
  induction xs generalizing ys with
  | nil =>
    cases h
    exact .nil
  | cons x xs ih =>
    obtain ⟨first, others, hx, hxs, rfl⟩ := exists_of_mapM_cons_eq_ok h
    exact .cons hx (ih hxs)

/-- What is read off the results may be read off the elements. -/
theorem map_eq_map_of_mapM {γ : Type} {g : β → γ} {k : α → γ} (h : xs.mapM f = .ok ys)
    (hresult : ∀ x y, f x = .ok y → g y = k x) : ys.map g = xs.map k := by
  induction xs generalizing ys with
  | nil =>
    cases h
    rfl
  | cons x xs ih =>
    obtain ⟨first, others, hx, hxs, rfl⟩ := exists_of_mapM_cons_eq_ok h
    rw [List.map_cons, List.map_cons, hresult x first hx, ih hxs]

/-- The results of two steps, each for a whole list, are those of the two steps for its elements. -/
theorem forall₂_of_mapM_of_mapM {γ : Type} {g : β → Except ε γ} {zs : List γ}
    (h : xs.mapM f = .ok ys) (h' : ys.mapM g = .ok zs) :
    List.Forall₂ (fun x z => ∃ y, f x = .ok y ∧ g y = .ok z) xs zs := by
  induction xs generalizing ys zs with
  | nil =>
    cases h
    cases h'
    exact .nil
  | cons x xs ih =>
    obtain ⟨y, ys, hy, hys, rfl⟩ := exists_of_mapM_cons_eq_ok h
    obtain ⟨z, zs, hz, hzs, rfl⟩ := exists_of_mapM_cons_eq_ok h'
    exact .cons ⟨y, hy, hz⟩ (ih hys hzs)

/-- What each element of a list keeps holds in the end, if it holds at first. -/
theorem foldlM_invariant {σ : Type} {step : σ → α → Except ε σ} {P : σ → Prop}
    (hstep : ∀ s, P s → ∀ x ∈ xs, ∀ t, step s x = .ok t → P t) {s t : σ} (hs : P s)
    (h : xs.foldlM step s = .ok t) : P t := by
  induction xs generalizing s with
  | nil =>
    cases h
    exact hs
  | cons x xs ih =>
    rw [List.foldlM_cons] at h
    obtain ⟨next, hnext, hrest⟩ := exists_of_bind_eq_ok h
    exact ih (fun s hs y hy => hstep s hs y (List.mem_cons_of_mem x hy))
      (hstep s hs x List.mem_cons_self next hnext) hrest

end ModuleAssembly.Fault
