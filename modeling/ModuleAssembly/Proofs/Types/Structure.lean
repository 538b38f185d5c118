import ModuleAssembly.Proofs.Types.Unambiguous

/-!
# Types whose text keeps their structure

The names of a plain type are words, and its generic types have a symbol or a name as their base and
an argument (`TypeExpr.isPlain`). Its text says a type that is plain and clear itself and is written
in the same way. So two plain types are written as the same tokens exactly if their texts say the
same (`TypeExpr.tokens_write_eq_iff_asRead`), and clear ones exactly if they mean the same.
-/

namespace ModuleAssembly.TypeExpr

/-! ## Plain types -/

mutual

/-- Whether the names in a type are words, and its generic types have a symbol or a name as their
base and an argument. -/
def isPlain : TypeExpr → Bool
  | .symbol _ => true
  | .named name => isWord name
  | .union first others => first.isPlain && arePlain others
  | .array element => element.isPlain
  | .generic base args => base.isReference && base.isPlain && !args.isEmpty && arePlain args

/-- Whether several types are all plain. -/
def arePlain : List TypeExpr → Bool
  | [] => true
  | t :: ts => t.isPlain && arePlain ts

end

/-- Several types are plain if each is. -/
theorem arePlain_iff (ts : List TypeExpr) : arePlain ts = true ↔ ∀ t ∈ ts, t.isPlain = true := by
  induction ts with
  | nil => simp [arePlain]
  | cons t ts ih => rw [arePlain, Bool.and_eq_true, ih, List.forall_mem_cons]

/-- A union is plain if its choices are. -/
theorem isPlain_union (first : TypeExpr) (others : List TypeExpr) :
    (union first others).isPlain = true ↔ ∀ t ∈ first :: others, t.isPlain = true := by
  rw [isPlain, Bool.and_eq_true, arePlain_iff, List.forall_mem_cons]

/-- A generic type is plain if its base is a plain symbol or name and its arguments, of which there
are some, are plain. -/
theorem isPlain_generic (base : TypeExpr) (args : List TypeExpr) :
    (generic base args).isPlain = true ↔ base.isReference = true ∧ base.isPlain = true ∧
      args ≠ [] ∧ ∀ t ∈ args, t.isPlain = true := by
  simp [isPlain, arePlain_iff, and_assoc]

/-- A symbol or a name is the one choice of its text. -/
theorem readChoices_of_isReference {t : TypeExpr} (h : t.isReference = true) :
    t.readChoices = [t] := by
  cases t with
  | symbol s => rfl
  | named name => rfl
  | union first others => exact absurd h Bool.false_ne_true
  | array element => exact absurd h Bool.false_ne_true
  | generic base args => exact absurd h Bool.false_ne_true

/-- What is read from the text of a plain type consists of choices. -/
theorem isChoice_of_mem_readChoices {t : TypeExpr} (h : t.isPlain = true) :
    ∀ c ∈ t.readChoices, IsChoice c := by
  induction t using inductionOn with
  | symbol s => exact List.forall_mem_singleton.2 (.symbol s)
  | named name => exact List.forall_mem_singleton.2 (.named name h)
  | union first others hfirst hothers =>
    obtain ⟨hplain, hplains⟩ := List.forall_mem_cons.1 ((isPlain_union first others).1 h)
    rw [readChoices_union]
    exact List.forall_mem_flatMap.2
      (List.forall_mem_cons.2 ⟨hfirst hplain, fun t ht => hothers t ht (hplains t ht)⟩)
  | array element helement =>
    have hchoices := helement h
    have harray : ∀ c, IsChoice c → IsChoice (.array c) := fun c hc =>
      .array [c] (List.cons_ne_nil c []) (List.forall_mem_singleton.2 hc)
    rw [readChoices_array]
    split
    · exact List.forall_mem_singleton.2 (.array _ (readChoices_proper element).1 hchoices)
    · exact forall_mem_modifyLast harray hchoices
  | generic base args hbase hargs =>
    obtain ⟨href, hplain, hne, hargsplain⟩ := (isPlain_generic base args).1 h
    have hread := readChoices_of_isReference href
    have hchoice : IsChoice base := hbase hplain base (by simp [hread])
    have hmap : args.map asRead = (args.map readChoices).map oneOf := by
      rw [List.map_map]
      rfl
    have hargsne : ∀ cs ∈ args.map readChoices, cs ≠ [] :=
      List.forall_mem_map.2 fun t _ => (readChoices_proper t).1
    have hargschoice : ∀ cs ∈ args.map readChoices, ∀ c ∈ cs, IsChoice c :=
      List.forall_mem_map.2 fun t ht => hargs t ht (hargsplain t ht)
    rw [readChoices_generic, asRead, hread, oneOf, hmap]
    exact List.forall_mem_singleton.2
      (.generic base _ hchoice href (by simpa using hne) hargsne hargschoice)

/-- A plain type has a text, on one line. -/
theorem atoms_proper {t : TypeExpr} (h : t.isPlain = true) :
    t.atoms ≠ [] ∧ .lineBreak ∉ t.atoms := by
  induction t using inductionOn with
  | symbol s => simp [atoms_symbol, Atom.lineBreak]
  | named name =>
    obtain ⟨hne, hword⟩ := (isWord_iff name).1 h
    rw [atoms_named]
    refine ⟨by simpa [Atom.ofText] using hne, fun hline => ?_⟩
    obtain ⟨c, hc, hbreak⟩ := List.mem_map.1 hline
    cases hbreak
    exact absurd (hword '\n' hc) (by decide)
  | union first others hfirst hothers =>
    obtain ⟨hplain, hplains⟩ := List.forall_mem_cons.1 ((isPlain_union first others).1 h)
    obtain ⟨hne, hline⟩ := hfirst hplain
    have hchoices : ∀ t ∈ first :: others, .lineBreak ∉ t.atoms :=
      List.forall_mem_cons.2 ⟨hline, fun t ht => (hothers t ht (hplains t ht)).2⟩
    rw [atoms_union]
    refine ⟨?_, not_mem_intercalate (by decide) (List.forall_mem_map.2 hchoices)⟩
    rw [List.map_cons, intercalate_cons_eq_flatMap]
    exact List.append_ne_nil_of_left_ne_nil hne _
  | array element helement =>
    have hline := (helement h).2
    have hopen : Atom.lineBreak ∉ Atom.ofText "(" := by decide
    have hclose : Atom.lineBreak ∉ Atom.ofText ")" := by decide
    have hbrackets : Atom.lineBreak ∉ Atom.ofText "[]" := by decide
    rw [atoms_array]
    refine ⟨List.append_ne_nil_of_right_ne_nil _ (by decide), ?_⟩
    split <;> simp [hline, hopen, hclose, hbrackets]
  | generic base args hbase hargs =>
    obtain ⟨-, hplain, -, hargsplain⟩ := (isPlain_generic base args).1 h
    have hline := (hbase hplain).2
    have harguments : Atom.lineBreak ∉ (Atom.ofText ", ").intercalate (args.map atoms) :=
      not_mem_intercalate (by decide)
        (List.forall_mem_map.2 fun t ht => (hargs t ht (hargsplain t ht)).2)
    have hopen : Atom.lineBreak ∉ Atom.ofText "<" := by decide
    have hclose : Atom.lineBreak ∉ Atom.ofText ">" := by decide
    rw [atoms_generic]
    refine ⟨List.append_ne_nil_of_right_ne_nil _ (by decide), ?_⟩
    simp [hline, harguments, hopen, hclose]

/-- Plain types are written with the same atoms exactly if their texts say the same. -/
theorem atoms_eq_iff {t u : TypeExpr} (ht : t.isPlain = true) (hu : u.isPlain = true) :
    t.atoms = u.atoms ↔ t.asRead = u.asRead := by
  constructor
  · intro h
    have hstart : StartsChoices [] := ⟨by simp [Delimited], by decide⟩
    have hknown : ∀ c ∈ t.readChoices, IsKnown c := fun c hc =>
      (isChoice_of_mem_readChoices ht c hc).isKnown
    have hread : [] ++ t.asRead.atoms = [] ++ u.asRead.atoms := by
      rw [atoms_asRead, atoms_asRead, h]
    have hchoices := oneOf_ext (readChoices_proper t).1 (readChoices_proper u).1 hknown
      (isChoice_of_mem_readChoices hu) hstart hstart hread
    exact congrArg oneOf hchoices.2
  · intro h
    rw [← atoms_asRead t, h, atoms_asRead]

/-- Plain types are written as the same tokens exactly if their texts say the same. -/
theorem tokens_write_eq_iff_asRead (w : Writer) {t u : TypeExpr} (ht : t.isPlain = true)
    (hu : u.isPlain = true) :
    (w.write (t.pieces false)).tokens = (w.write (u.pieces false)).tokens ↔
      t.asRead = u.asRead := by
  obtain ⟨htne, htline⟩ := atoms_proper ht
  obtain ⟨hune, huline⟩ := atoms_proper hu
  exact (w.tokens_write_eq_iff (t.isInline_pieces false) (u.isInline_pieces false) htline huline
    htne hune).trans (atoms_eq_iff ht hu)

/-! ## What a text says -/

/-- What a union has if its choices have it, one of several types has if they have it. -/
theorem oneOf_of_forall {P : TypeExpr → Prop}
    (hunion : ∀ first others, (∀ t ∈ first :: others, P t) → P (.union first others))
    {cs : List TypeExpr} (hne : cs ≠ []) (hcs : ∀ c ∈ cs, P c) : P (oneOf cs) := by
  match cs, hne with
  | [c], _ => exact hcs c List.mem_cons_self
  | c :: d :: cs, _ => exact hunion c (d :: cs) hcs

/-- One of several types has their choices. -/
theorem choices_oneOf {cs : List TypeExpr} (hne : cs ≠ []) :
    (oneOf cs).choices = cs.flatMap choices := by
  match cs, hne with
  | [c], _ => exact (List.flatMap_singleton choices c).symm
  | c :: d :: cs, _ => exact choices_union c (d :: cs)

/-- One of several types has these as its choices if each is its only choice. -/
theorem choices_oneOf_eq_self {cs : List TypeExpr} (hne : cs ≠ [])
    (hcs : ∀ c ∈ cs, c.choices = [c]) : (oneOf cs).choices = cs := by
  rw [choices_oneOf hne, List.flatMap_congr hcs, List.flatMap_singleton']

/-- Flattening changes nothing about them. -/
theorem flatten_oneOf {cs : List TypeExpr} (hne : cs ≠ [])
    (hcs : ∀ c ∈ cs, c.choices = [c]) : (oneOf cs).flatten = oneOf cs := by
  rw [flatten, choices_oneOf_eq_self hne hcs]

namespace IsChoice

variable {c : TypeExpr}

/-- A choice is its only choice. -/
theorem choices_eq (h : IsChoice c) : c.choices = [c] := by
  induction h with
  | symbol s => rfl
  | named name => rfl
  | array cs hne hcs ih => rw [choices_array, flatten_oneOf hne ih]
  | generic base args hbase href hne hargsne hargs ihbase ihargs =>
    have hmap : (args.map oneOf).map flatten = args.map oneOf := by
      rw [List.map_map]
      exact List.map_congr_left fun cs hcs => flatten_oneOf (hargsne cs hcs) (ihargs cs hcs)
    rw [choices_generic, flatten, ihbase, oneOf, hmap]

/-- A choice is plain. -/
theorem isPlain (h : IsChoice c) : c.isPlain = true := by
  have hunion := fun first others => (isPlain_union first others).2
  induction h with
  | symbol s => rfl
  | named name h => exact h
  | array cs hne hcs ih => exact oneOf_of_forall hunion hne ih
  | generic base args hbase href hne hargsne hargs ihbase ihargs =>
    refine (isPlain_generic base _).2 ⟨href, ihbase, by simpa using hne, ?_⟩
    exact List.forall_mem_map.2 fun cs hcs =>
      oneOf_of_forall hunion (hargsne cs hcs) (ihargs cs hcs)

/-- A choice is clear. -/
theorem isClear (h : IsChoice c) : c.isClear = true := by
  have hunion := fun first others => (isClear_union first others).2
  induction h with
  | symbol s => rfl
  | named name => rfl
  | array cs hne hcs ih =>
    have hbracketed := isBracketed_oneOf fun c hc => (hcs c hc).isUnion
    have hchoices := choices_oneOf_eq_self hne fun c hc => (hcs c hc).choices_eq
    have hpos := List.length_pos_of_ne_nil hne
    refine (isClear_array _).2 ⟨oneOf_of_forall hunion hne ih, ?_⟩
    rw [hbracketed, hchoices, decide_eq_true_eq]
    omega
  | generic base args hbase href hne hargsne hargs ihbase ihargs =>
    refine (isClear_generic base _).2 ⟨ihbase, ?_⟩
    exact List.forall_mem_map.2 fun cs hcs =>
      oneOf_of_forall hunion (hargsne cs hcs) (ihargs cs hcs)

end IsChoice

/-- What the text of a plain type says is plain. -/
theorem isPlain_asRead {t : TypeExpr} (h : t.isPlain = true) : t.asRead.isPlain = true :=
  oneOf_of_forall (fun first others => (isPlain_union first others).2) (readChoices_proper t).1
    fun c hc => (isChoice_of_mem_readChoices h c hc).isPlain

/-- What the text of a plain type says is clear. -/
theorem isClear_asRead {t : TypeExpr} (h : t.isPlain = true) : t.asRead.isClear = true :=
  oneOf_of_forall (fun first others => (isClear_union first others).2) (readChoices_proper t).1
    fun c hc => (isChoice_of_mem_readChoices h c hc).isClear

/-- Two clear types are written as the same tokens exactly if they are the same after flattening,
and an array of several choices that is clear has them in parentheses. A type that is not clear is
written as one that is clear and means something else. -/
theorem tokens_write_eq_iff_flatten (w : Writer) {t u : TypeExpr} (ht : t.isPlain = true)
    (hu : u.isPlain = true) :
    (t.isClear = true → u.isClear = true →
      ((w.write (t.pieces false)).tokens = (w.write (u.pieces false)).tokens ↔
        t.flatten = u.flatten)) ∧
    (∀ e, t = .array e → t.isClear = true → 1 < e.choices.length →
      t.pieces false = .text "(" :: e.pieces false ++ [.text ")", .text "[]"]) ∧
    (t.isClear = false → ∃ v : TypeExpr, v.isPlain = true ∧ v.isClear = true ∧
      (w.write (v.pieces false)).tokens = (w.write (t.pieces false)).tokens ∧
        v.flatten ≠ t.flatten) := by
  refine ⟨fun htclear huclear => ?_, ?_, fun hunclear => ?_⟩
  · rw [tokens_write_eq_iff_asRead w ht hu, (asRead_eq_flatten_iff t).2 htclear,
      (asRead_eq_flatten_iff u).2 huclear]
  · rintro e rfl hclear hseveral
    have hbracketed : e.isBracketed = true :=
      ((isClear_array e).1 hclear).2.resolve_right (by omega)
    rw [pieces_array, if_pos hbracketed, List.append_assoc]
    rfl
  · -- What the text says is clear, so it cannot mean what the type means.
    have hplain := isPlain_asRead ht
    have hclear := isClear_asRead ht
    have hread : t.asRead.asRead = t.asRead := (atoms_eq_iff hplain ht).1 (atoms_asRead t)
    refine ⟨t.asRead, hplain, hclear, (tokens_write_eq_iff_asRead w hplain ht).2 hread, ?_⟩
    rw [← (asRead_eq_flatten_iff t.asRead).2 hclear, hread, Ne, asRead_eq_flatten_iff, hunclear]
    exact Bool.false_ne_true

/-- The brackets of `(A | B)[]` belong to both names, also if the second one is in a union of its
own; but not if their union is the one choice of another one. -/
theorem tokens_write_eq_of_single_choice :
    ((({} : Writer).write ((array (union (named "A") [union (named "B") []])).pieces false)).tokens =
        (({} : Writer).write ((array (union (named "A") [named "B"])).pieces false)).tokens ∧
      (array (union (named "A") [named "B"])).pieces false =
        .text "(" :: (union (named "A") [named "B"]).pieces false ++ [.text ")", .text "[]"]) ∧
    ∃ v : TypeExpr, v.isPlain = true ∧ v.isClear = true ∧
      (({} : Writer).write (v.pieces false)).tokens =
        (({} : Writer).write
          ((array (union (union (named "A") [named "B"]) [])).pieces false)).tokens ∧
      v.flatten ≠ (array (union (union (named "A") [named "B"]) [])).flatten := by
  have hnested : (array (union (named "A") [union (named "B") []])).isPlain = true := rfl
  have hflat : (array (union (named "A") [named "B"])).isPlain = true := rfl
  have hsingle : (array (union (union (named "A") [named "B"]) [])).isPlain = true := rfl
  exact ⟨⟨((tokens_write_eq_iff_flatten {} hnested hflat).1 rfl rfl).2 rfl,
    (tokens_write_eq_iff_flatten {} hflat hflat).2.1 _ rfl rfl (by decide)⟩,
    (tokens_write_eq_iff_flatten {} hsingle hflat).2.2 rfl⟩

/-- An array of a union whose one choice is the union of two names is written as the union of the
first name and an array of the second, `A | B[]`. -/
theorem tokens_write_eq_of_nested_union :
    (array (union (union (named "A") [named "B"]) [])).isPlain = true ∧
      (union (named "A") [array (named "B")]).isPlain = true ∧
      (({} : Writer).write
          ((array (union (union (named "A") [named "B"]) [])).pieces false)).tokens =
        (({} : Writer).write ((union (named "A") [array (named "B")]).pieces false)).tokens ∧
      (array (union (union (named "A") [named "B"]) [])).flatten ≠
        (union (named "A") [array (named "B")]).flatten := by
  refine ⟨rfl, rfl, rfl, fun h => ?_⟩
  have hkind := congrArg isUnion h
  exact absurd hkind Bool.false_ne_true

end ModuleAssembly.TypeExpr
