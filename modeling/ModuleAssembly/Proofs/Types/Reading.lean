import Mathlib.Algebra.Order.BigOperators.Group.List
import Mathlib.Algebra.Order.Group.Nat
import Mathlib.Data.List.ModifyLast
import ModuleAssembly.Proofs.Types.Atoms

/-!
# What the text of a type says

Two types mean the same if they are the same after flattening: a union in a union is spliced into
it, and a union of one choice is replaced by the choice (`TypeExpr.flatten`). What the text of a
type says is a type as well (`TypeExpr.asRead`), which is written in the same way
(`TypeExpr.atoms_asRead`). It is the flattened type, but for the arrays whose element has several
choices and stands in no parentheses, because it is a union of one choice: there the brackets belong
to the last choice alone. So the text says what the type means exactly if the type has no such array
in it (`TypeExpr.asRead_eq_flatten_iff`).
-/

namespace ModuleAssembly.TypeExpr

/-! ## Choices -/

/-- One of several types, of which there are some; a single type stands for itself. -/
def oneOf : List TypeExpr → TypeExpr
  | [] => .named ""
  | [t] => t
  | t :: u :: ts => .union t (u :: ts)

mutual

/-- The choices of a type, if `ofArray` gives those of an array from its element and the choices of
the element. -/
def choicesBy (ofArray : TypeExpr → List TypeExpr → List TypeExpr) : TypeExpr → List TypeExpr
  | .symbol s => [.symbol s]
  | .named name => [.named name]
  | .union first others => choicesBy ofArray first ++ choicesOfAllBy ofArray others
  | .array element => ofArray element (choicesBy ofArray element)
  | .generic base args => [.generic (oneOf (choicesBy ofArray base)) (eachBy ofArray args)]

/-- The choices of several types, one after the other. -/
def choicesOfAllBy (ofArray : TypeExpr → List TypeExpr → List TypeExpr) :
    List TypeExpr → List TypeExpr
  | [] => []
  | t :: ts => choicesBy ofArray t ++ choicesOfAllBy ofArray ts

/-- Several types, each as one of its choices. -/
def eachBy (ofArray : TypeExpr → List TypeExpr → List TypeExpr) : List TypeExpr → List TypeExpr
  | [] => []
  | t :: ts => oneOf (choicesBy ofArray t) :: eachBy ofArray ts

end

/-- The choices of a type after unions have been flattened. An array is one choice. -/
def choices (t : TypeExpr) : List TypeExpr :=
  t.choicesBy fun _ cs => [.array (oneOf cs)]

/-- A type after unions have been flattened, everywhere in it. -/
def flatten (t : TypeExpr) : TypeExpr :=
  oneOf t.choices

/-- The choices that the text of a type has. Brackets after parentheses belong to all that stands in
these, and other brackets to the choice in front of them. -/
def readChoices (t : TypeExpr) : List TypeExpr :=
  t.choicesBy fun element cs =>
    if element.isBracketed then [.array (oneOf cs)] else cs.modifyLast .array

/-- The type that the text of a type says. -/
def asRead (t : TypeExpr) : TypeExpr :=
  oneOf t.readChoices

mutual

/-- Whether the element of every array in a type stands in parentheses if it has several
choices. -/
def isClear : TypeExpr → Bool
  | .symbol _ | .named _ => true
  | .union first others => first.isClear && areClear others
  | .array element =>
    element.isClear && (element.isBracketed || element.choices.length == 1)
  | .generic base args => base.isClear && areClear args

/-- Whether several types are all clear. -/
def areClear : List TypeExpr → Bool
  | [] => true
  | t :: ts => t.isClear && areClear ts

end

/-- Whether a type is a union. -/
def isUnion : TypeExpr → Bool
  | .union .. => true
  | .symbol _ | .named _ | .array _ | .generic .. => false

/-! ## One of several types -/

/-- Several types are written with bars between them. -/
theorem atoms_oneOf {cs : List TypeExpr} (hne : cs ≠ []) :
    (oneOf cs).atoms = (Atom.ofText " | ").intercalate (cs.map atoms) := by
  match cs, hne with
  | [c], _ => simp [oneOf]
  | c :: d :: cs, _ => exact atoms_union c (d :: cs)

/-- Several types that are no unions are not written in parentheses if there is only one. -/
theorem isBracketed_oneOf {cs : List TypeExpr} (hcs : ∀ c ∈ cs, c.isUnion = false) :
    (oneOf cs).isBracketed = decide (1 < cs.length) := by
  match cs, hcs with
  | [], _ => rfl
  | [c], hcs =>
    have hc := hcs c List.mem_cons_self
    cases c <;> simp_all [oneOf, isBracketed, isUnion]
  | c :: d :: cs, _ => simp [oneOf, isBracketed]

/-- One of several types says which they are, if none of them is a union. -/
theorem oneOf_inj {cs ds : List TypeExpr} (hcs : ∀ c ∈ cs, c.isUnion = false)
    (hds : ∀ d ∈ ds, d.isUnion = false) (hcsne : cs ≠ []) (hdsne : ds ≠ []) :
    oneOf cs = oneOf ds ↔ cs = ds := by
  refine ⟨fun h => ?_, congrArg oneOf⟩
  match cs, hcsne, ds, hdsne with
  | [c], _, [d], _ => rw [show c = d from h]
  | [c], _, d :: e :: ds, _ =>
    have hc := hcs c List.mem_cons_self
    rw [show c = .union d (e :: ds) from h] at hc
    exact absurd hc.symm Bool.false_ne_true
  | c :: b :: cs, _, [d], _ =>
    have hd := hds d List.mem_cons_self
    rw [← show .union c (b :: cs) = d from h] at hd
    exact absurd hd.symm Bool.false_ne_true
  | c :: b :: cs, _, d :: e :: ds, _ =>
    obtain ⟨hfirst, hothers⟩ := TypeExpr.union.inj h
    rw [hfirst, hothers]

/-! ## The choices of a type -/

section ChoicesBy

variable {ofArray : TypeExpr → List TypeExpr → List TypeExpr}

/-- The choices of several types are those of each. -/
theorem choicesOfAllBy_eq_flatMap (ts : List TypeExpr) :
    choicesOfAllBy ofArray ts = ts.flatMap (choicesBy ofArray) := by
  induction ts with
  | nil => rfl
  | cons t ts ih => rw [choicesOfAllBy, ih, List.flatMap_cons]

/-- The choices of a union are those of its choices. -/
theorem choicesBy_union (first : TypeExpr) (others : List TypeExpr) :
    choicesBy ofArray (.union first others) =
      (first :: others).flatMap (choicesBy ofArray) := by
  rw [choicesBy, choicesOfAllBy_eq_flatMap, List.flatMap_cons]

/-- Several types, each as one of its choices. -/
theorem eachBy_eq_map (ts : List TypeExpr) :
    eachBy ofArray ts = ts.map fun t => oneOf (choicesBy ofArray t) := by
  induction ts with
  | nil => rfl
  | cons t ts ih => rw [eachBy, ih, List.map_cons]

/-- Every type has a choice, and no choice is a union, if this is so for arrays. -/
theorem choicesBy_proper
    (harray : ∀ e cs, cs ≠ [] → (∀ c ∈ cs, c.isUnion = false) →
      ofArray e cs ≠ [] ∧ ∀ c ∈ ofArray e cs, c.isUnion = false) (t : TypeExpr) :
    choicesBy ofArray t ≠ [] ∧ ∀ c ∈ choicesBy ofArray t, c.isUnion = false := by
  induction t using inductionOn with
  | symbol s => simp [choicesBy, isUnion]
  | named name => simp [choicesBy, isUnion]
  | union first others hfirst hothers =>
    refine ⟨by simp [choicesBy, hfirst.1], ?_⟩
    rw [choicesBy_union]
    exact List.forall_mem_flatMap.2
      (List.forall_mem_cons.2 ⟨hfirst.2, fun t ht => (hothers t ht).2⟩)
  | array element helement => exact harray element _ helement.1 helement.2
  | generic base args _ _ => simp [choicesBy, isUnion]

end ChoicesBy

/-- What holds of some types holds of them after a change of the last one that preserves it. -/
theorem forall_mem_modifyLast {P : TypeExpr → Prop} {f : TypeExpr → TypeExpr}
    (hf : ∀ c, P c → P (f c)) {cs : List TypeExpr} (h : ∀ c ∈ cs, P c) :
    ∀ c ∈ cs.modifyLast f, P c := by
  rcases List.eq_nil_or_concat' cs with rfl | ⟨init, last, rfl⟩
  · exact h
  · rw [List.modifyLast_concat]
    obtain ⟨hinit, hlast⟩ := List.forall_mem_append.1 h
    exact List.forall_mem_append.2
      ⟨hinit, List.forall_mem_singleton.2 (hf last (List.forall_mem_singleton.1 hlast))⟩

/-- A type has a choice, and no choice is a union. -/
theorem choices_proper (t : TypeExpr) :
    t.choices ≠ [] ∧ ∀ c ∈ t.choices, c.isUnion = false :=
  choicesBy_proper (fun _ _ _ _ => by simp [isUnion]) t

/-- The text of a type has a choice, and no choice is a union. -/
theorem readChoices_proper (t : TypeExpr) :
    t.readChoices ≠ [] ∧ ∀ c ∈ t.readChoices, c.isUnion = false := by
  refine choicesBy_proper (fun element cs hne hcs => ?_) t
  split
  · simp [isUnion]
  · have harray : ∀ c : TypeExpr, c.isUnion = false → c.array.isUnion = false := fun _ _ => rfl
    refine ⟨?_, forall_mem_modifyLast harray hcs⟩
    obtain ⟨init, last, rfl⟩ := (List.eq_nil_or_concat' cs).resolve_left hne
    rw [List.modifyLast_concat]
    exact List.concat_ne_nil _ _

/-- A union has the choices of its choices, after flattening. -/
theorem choices_union (first : TypeExpr) (others : List TypeExpr) :
    (union first others).choices = (first :: others).flatMap choices :=
  choicesBy_union first others

/-- An array is one choice, after flattening. -/
theorem choices_array (e : TypeExpr) : (array e).choices = [.array e.flatten] :=
  rfl

/-- A generic type is one choice, after flattening. -/
theorem choices_generic (base : TypeExpr) (args : List TypeExpr) :
    (generic base args).choices = [.generic base.flatten (args.map flatten)] := by
  rw [choices, choicesBy, eachBy_eq_map]
  rfl

/-- The text of a union has the choices of the texts of its choices. -/
theorem readChoices_union (first : TypeExpr) (others : List TypeExpr) :
    (union first others).readChoices = (first :: others).flatMap readChoices :=
  choicesBy_union first others

/-- The text of an array has one choice if there are parentheses, and otherwise the choices of its
element, the last one as an array. -/
theorem readChoices_array (e : TypeExpr) :
    (array e).readChoices =
      if e.isBracketed then [.array e.asRead] else e.readChoices.modifyLast .array :=
  rfl

/-- The text of a generic type has one choice. -/
theorem readChoices_generic (base : TypeExpr) (args : List TypeExpr) :
    (generic base args).readChoices = [.generic base.asRead (args.map asRead)] := by
  rw [readChoices, choicesBy, eachBy_eq_map]
  rfl

/-- A type in parentheses has several choices. -/
theorem one_lt_length_readChoices {t : TypeExpr} (h : t.isBracketed = true) :
    1 < t.readChoices.length := by
  match t, h with
  | .union first (second :: others), _ =>
    have hfirst := List.length_pos_of_ne_nil (readChoices_proper first).1
    have hsecond := List.length_pos_of_ne_nil (readChoices_proper second).1
    rw [readChoices_union, List.flatMap_cons, List.flatMap_cons, List.length_append,
      List.length_append]
    omega

/-! ## The text of a type -/

/-- What the text of a type says is written as the type is, if its choices are. -/
theorem atoms_asRead_of_atoms_eq {t : TypeExpr}
    (h : t.atoms = (Atom.ofText " | ").intercalate (t.readChoices.map atoms)) :
    t.asRead.atoms = t.atoms := by
  rw [asRead, atoms_oneOf (readChoices_proper t).1, h]

/-- The choices of what the text of an array says are written as the array is, if those of its
element are. -/
theorem atoms_array_eq_intercalate {element : TypeExpr}
    (h : element.atoms = (Atom.ofText " | ").intercalate (element.readChoices.map atoms)) :
    element.array.atoms =
      (Atom.ofText " | ").intercalate (element.array.readChoices.map atoms) := by
  obtain ⟨hne, hcs⟩ := readChoices_proper element
  rw [atoms_array, readChoices_array]
  split
  case isTrue hbracket =>
    -- What is read has several choices too, so it stands in parentheses as the element does.
    have hlength := one_lt_length_readChoices hbracket
    have hbracketed : element.asRead.isBracketed = true := by
      rw [asRead, isBracketed_oneOf hcs, decide_eq_true hlength]
    rw [List.map_singleton, List.intercalate_singleton, atoms_array, hbracketed,
      atoms_asRead_of_atoms_eq h, if_pos rfl]
  case isFalse =>
    -- The brackets follow the last choice, which is no union.
    obtain ⟨init, last, hlast⟩ := (List.eq_nil_or_concat' element.readChoices).resolve_left hne
    have hunion : last.isUnion = false := hcs last (by simp [hlast])
    have hbracketed : last.isBracketed = false := by
      have hone := isBracketed_oneOf (List.forall_mem_singleton.2 hunion)
      simpa [oneOf] using hone
    have harray : last.array.atoms = last.atoms ++ Atom.ofText "[]" := by
      rw [atoms_array, hbracketed]
      rfl
    rw [h, hlast, List.modifyLast_concat, List.map_append, List.map_append, List.map_singleton,
      List.map_singleton, harray]
    cases init with
    | nil => simp
    | cons c cs =>
      rw [intercalate_append _ (by simp) (by simp), intercalate_append _ (by simp) (by simp),
        List.intercalate_singleton, List.intercalate_singleton]
      simp only [List.append_assoc]

/-- The choices of what the text of a type says are written as the type is. -/
theorem atoms_eq_intercalate (t : TypeExpr) :
    t.atoms = (Atom.ofText " | ").intercalate (t.readChoices.map atoms) := by
  induction t using inductionOn with
  | symbol s => simp [readChoices, choicesBy]
  | named name => simp [readChoices, choicesBy]
  | union first others hfirst hothers =>
    have hall : (first :: others).map atoms =
        ((first :: others).map fun t => t.readChoices.map atoms).map
          (Atom.ofText " | ").intercalate := by
      rw [List.map_map]
      exact List.map_congr_left (List.forall_mem_cons.2 ⟨hfirst, hothers⟩)
    have hne : ∀ xs ∈ (first :: others).map fun t => t.readChoices.map atoms, xs ≠ [] := by
      intro xs hxs
      obtain ⟨t, -, rfl⟩ := List.mem_map.1 hxs
      simpa using (readChoices_proper t).1
    rw [atoms_union, hall, intercalate_map_intercalate _ hne, readChoices_union, List.map_flatMap,
      List.flatMap]
  | array element helement => exact atoms_array_eq_intercalate helement
  | generic base args hbase hargs =>
    have hmap : (args.map asRead).map atoms = args.map atoms := by
      rw [List.map_map]
      exact List.map_congr_left fun t ht => atoms_asRead_of_atoms_eq (hargs t ht)
    rw [readChoices_generic, List.map_singleton, List.intercalate_singleton, atoms_generic,
      atoms_generic, atoms_asRead_of_atoms_eq hbase, hmap]

/-- What the text of a type says is written as the type is. -/
theorem atoms_asRead (t : TypeExpr) : t.asRead.atoms = t.atoms :=
  atoms_asRead_of_atoms_eq t.atoms_eq_intercalate

/-! ## Types that are read as they are meant -/

/-- Several types are clear if each is. -/
theorem areClear_iff (ts : List TypeExpr) : areClear ts = true ↔ ∀ t ∈ ts, t.isClear = true := by
  induction ts with
  | nil => simp [areClear]
  | cons t ts ih => rw [areClear, Bool.and_eq_true, ih, List.forall_mem_cons]

/-- A union is clear if its choices are. -/
theorem isClear_union (first : TypeExpr) (others : List TypeExpr) :
    (union first others).isClear = true ↔ ∀ t ∈ first :: others, t.isClear = true := by
  rw [isClear, Bool.and_eq_true, areClear_iff, List.forall_mem_cons]

/-- An array is clear if its element is, and stands in parentheses or is one choice. -/
theorem isClear_array (e : TypeExpr) : (array e).isClear = true ↔
    e.isClear = true ∧ (e.isBracketed = true ∨ e.choices.length = 1) := by
  rw [isClear, Bool.and_eq_true, Bool.or_eq_true, beq_iff_eq]

/-- A generic type is clear if its base and its arguments are. -/
theorem isClear_generic (base : TypeExpr) (args : List TypeExpr) :
    (generic base args).isClear = true ↔ base.isClear = true ∧ ∀ t ∈ args, t.isClear = true := by
  rw [isClear, Bool.and_eq_true, areClear_iff]

/-- Several lists that are no longer than others are no longer one after the other. -/
theorem length_flatMap_le {f g : TypeExpr → List TypeExpr} {ts : List TypeExpr}
    (h : ∀ t ∈ ts, (f t).length ≤ (g t).length) :
    (ts.flatMap f).length ≤ (ts.flatMap g).length := by
  rw [List.length_flatMap, List.length_flatMap]
  exact List.sum_le_sum h

/-- Several lists that are no longer than others are equal one after the other exactly if each is
equal. -/
theorem flatMap_eq_flatMap_iff {f g : TypeExpr → List TypeExpr} {ts : List TypeExpr}
    (h : ∀ t ∈ ts, (f t).length ≤ (g t).length) :
    ts.flatMap g = ts.flatMap f ↔ ∀ t ∈ ts, g t = f t := by
  refine ⟨fun heq => ?_, List.flatMap_congr⟩
  induction ts with
  | nil => exact fun _ ht => absurd ht List.not_mem_nil
  | cons t ts ih =>
    obtain ⟨ht, hts⟩ := List.forall_mem_cons.1 h
    rw [List.flatMap_cons, List.flatMap_cons] at heq
    -- No part is longer on the left, so none can be shorter either.
    have hrest := length_flatMap_le hts
    have hlength := congrArg List.length heq
    rw [List.length_append, List.length_append] at hlength
    obtain ⟨hfirst, hothers⟩ := List.append_inj heq (by omega)
    exact List.forall_mem_cons.2 ⟨hfirst, ih hts hothers⟩

/-- The text of a type has at least the choices of the type. -/
theorem length_choices_le (t : TypeExpr) : t.choices.length ≤ t.readChoices.length := by
  induction t using inductionOn with
  | symbol s => exact le_refl _
  | named name => exact le_refl _
  | union first others hfirst hothers =>
    rw [choices_union, readChoices_union]
    exact length_flatMap_le (List.forall_mem_cons.2 ⟨hfirst, hothers⟩)
  | array element _ => exact List.length_pos_of_ne_nil (readChoices_proper element.array).1
  | generic base args _ _ => rw [choices_generic, readChoices_generic]; rfl

/-- A text says what its type means exactly if it has the choices of the type. -/
theorem asRead_eq_flatten_iff_choices (t : TypeExpr) :
    t.asRead = t.flatten ↔ t.readChoices = t.choices := by
  obtain ⟨hreadne, hread⟩ := readChoices_proper t
  obtain ⟨hne, hunion⟩ := choices_proper t
  exact oneOf_inj hread hunion hreadne hne

/-- The text of an array has the choices of the array exactly if that of the element has those of
the element, and there are parentheses or is one choice only. -/
theorem readChoices_array_eq_iff (e : TypeExpr) :
    (array e).readChoices = (array e).choices ↔
      e.readChoices = e.choices ∧ (e.isBracketed = true ∨ e.choices.length = 1) := by
  rw [readChoices_array, choices_array, ← asRead_eq_flatten_iff_choices]
  have hnonempty := List.length_pos_of_ne_nil (choices_proper e).1
  have hle := length_choices_le e
  split
  case isTrue h => simp [h]
  case isFalse h =>
    rw [or_iff_right h]
    constructor
    · -- Only the last choice that is read becomes an array, so there is no other one.
      intro heq
      obtain ⟨init, last, hlast⟩ :=
        (List.eq_nil_or_concat' e.readChoices).resolve_left (readChoices_proper e).1
      have hone : init ++ [.array last] = [] ++ [.array e.flatten] := by
        rwa [hlast, List.modifyLast_concat] at heq
      obtain ⟨rfl, harray⟩ := List.append_inj' hone rfl
      have hread : e.readChoices = [last] := hlast
      have hflat : last = e.flatten := array.inj (List.singleton_inj.1 harray)
      rw [asRead, hread, oneOf]
      rw [hread, List.length_singleton] at hle
      exact ⟨hflat, by omega⟩
    · rintro ⟨heq, hlength⟩
      have hchoices := (asRead_eq_flatten_iff_choices e).1 heq
      obtain ⟨c, hc⟩ := List.length_eq_one_iff.1 hlength
      rw [hchoices, flatten, hc]
      rfl

/-- The text of a type has the choices of the type exactly if the type is clear. -/
theorem readChoices_eq_choices_iff (t : TypeExpr) :
    t.readChoices = t.choices ↔ t.isClear = true := by
  induction t using inductionOn with
  | symbol s => exact iff_of_true rfl rfl
  | named name => exact iff_of_true rfl rfl
  | union first others hfirst hothers =>
    rw [choices_union, readChoices_union, flatMap_eq_flatMap_iff fun t _ => length_choices_le t,
      isClear_union]
    exact forall₂_congr (List.forall_mem_cons.2 ⟨hfirst, hothers⟩)
  | array element helement =>
    rw [readChoices_array_eq_iff, helement, isClear_array]
  | generic base args hbase hargs =>
    rw [choices_generic, readChoices_generic, List.singleton_inj, generic.injEq,
      asRead_eq_flatten_iff_choices, hbase, List.map_eq_map_iff, isClear_generic]
    exact and_congr_right fun _ => forall₂_congr fun t ht =>
      (asRead_eq_flatten_iff_choices t).trans (hargs t ht)

/-- The text of a type says what the type means exactly if the type is clear. -/
theorem asRead_eq_flatten_iff (t : TypeExpr) : t.asRead = t.flatten ↔ t.isClear = true :=
  (asRead_eq_flatten_iff_choices t).trans (readChoices_eq_choices_iff t)

end ModuleAssembly.TypeExpr
