import ModuleAssembly.Proofs.Types.Reading

/-!
# Reading a type back from its text

A choice is a symbol, a word, or an array or a generic type of choices (`TypeExpr.IsChoice`). Its
text is read from right to left: the last atom says whether a symbol, a word, an array or a generic
type ends there (`TypeExpr.EndsAs`), and a word begins where it cannot be longer (`Delimited`). So a
choice is known from any text that ends in it (`TypeExpr.IsChoice.isKnown`), and several choices are
known from any text that ends in them and in which no other one precedes them
(`TypeExpr.oneOf_ext`).
-/

namespace ModuleAssembly

/-! ## Words -/

/-- Whether a character is in no word: a blank, a line break or a bracket. -/
def isMark (c : Char) : Bool :=
  c ∈ ['\n', ' ', '(', ')', '<', '>', '[', ']']

/-- Whether a name is a word, as every identifier is. -/
def isWord (name : String) : Bool :=
  !name.toList.isEmpty && name.toList.all fun c => !isMark c

/-- A word has a character, and none of its characters is a mark. -/
theorem isWord_iff (name : String) :
    isWord name = true ↔ name.toList ≠ [] ∧ ∀ c ∈ name.toList, isMark c = false := by
  simp [isWord]

/-- Whether a word that follows begins where it is written: what stands before does not end in a
character of a word. -/
def Delimited (pre : List Atom) : Prop :=
  ∀ c, pre.getLast? = some (.char c) → isMark c = true

namespace Atom

/-- The characters of a text say what it is. -/
theorem ofText_inj {s t : String} : ofText s = ofText t ↔ s = t := by
  have hchar : Function.Injective Atom.char := fun _ _ h => Atom.char.inj h
  rw [ofText, ofText, (List.map_injective_iff.2 hchar).eq_iff, String.toList_inj]

/-- A word may follow a text that ends in a mark. -/
theorem delimited_append (pre : List Atom) {as : List Atom} {c : Char}
    (hlast : as.getLast? = some (.char c)) (hmark : isMark c = true) : Delimited (pre ++ as) := by
  intro d hd
  rw [List.getLast?_append, hlast, Option.some_or] at hd
  cases hd
  exact hmark

/-- A word cannot be longer to the left. -/
theorem eq_nil_of_delimited {pre as : List Atom} {name : String} (hname : isWord name = true)
    (has : ∀ a ∈ as, a ∈ ofText name) (h : Delimited (pre ++ as)) : as = [] := by
  rcases List.eq_nil_or_concat' as with rfl | ⟨init, last, rfl⟩
  · rfl
  · obtain ⟨c, hc, rfl⟩ := List.mem_map.1 (has last (by simp))
    have hmark : isMark c = true := h c (by simp)
    have hword : isMark c = false := ((isWord_iff name).1 hname).2 c hc
    exact absurd (hword.symm.trans hmark) Bool.false_ne_true

/-- A word at the end of a text says what stands before it. -/
theorem append_word_inj {pre pre' : List Atom} {a b : String} (ha : isWord a = true)
    (hb : isWord b = true) (hpre : Delimited pre) (hpre' : Delimited pre')
    (h : pre ++ ofText a = pre' ++ ofText b) : pre = pre' ∧ a = b := by
  -- If one word is longer, the other one follows a character of it.
  rcases List.append_eq_append_iff.1 h with ⟨more, rfl, hmore⟩ | ⟨more, rfl, hmore⟩
  · have hnil : more = [] := eq_nil_of_delimited ha (by simp +contextual [hmore]) hpre'
    subst hnil
    exact ⟨(List.append_nil pre).symm, ofText_inj.1 hmore⟩
  · have hnil : more = [] := eq_nil_of_delimited hb (by simp +contextual [hmore]) hpre
    subst hnil
    exact ⟨List.append_nil pre', (ofText_inj.1 hmore).symm⟩

/-- A text that ends in another one does not end in a separator that ends otherwise. -/
theorem not_suffix_append (pre : List Atom) {sep as : List Atom} (hlength : as.length ≤ sep.length)
    (has : ¬ as <:+ sep) : ¬ sep <:+ pre ++ as := fun h =>
  has (List.suffix_of_suffix_length_le (List.suffix_append pre as) h hlength)

end Atom

/-! ## Lists with separators -/

/-- Items with separators between them are known from any text that ends in them, if each item is.
Items stand where `Ok` holds, which is so after a separator; the first one does not follow a
separator. -/
theorem intercalate_ext {α : Type} {f : α → List Atom} {sep : List Atom} {Ok : List Atom → Prop}
    (hsep : ∀ pre, Ok (pre ++ sep)) {xs ys : List α} (hxs : xs ≠ []) (hys : ys ≠ [])
    (hext : ∀ x ∈ xs, ∀ y ∈ ys, ∀ pre pre', Ok pre → Ok pre' → pre ++ f x = pre' ++ f y →
      pre = pre' ∧ x = y)
    {pre pre' : List Atom} (hpre : Ok pre) (hpre' : Ok pre') (hfirst : ¬ sep <:+ pre)
    (hfirst' : ¬ sep <:+ pre')
    (h : pre ++ sep.intercalate (xs.map f) = pre' ++ sep.intercalate (ys.map f)) :
    pre = pre' ∧ xs = ys := by
  induction xs using List.reverseRecOn generalizing ys with
  | nil => exact absurd rfl hxs
  | append_singleton xs x ih =>
    obtain ⟨ys, y, rfl⟩ := (List.eq_nil_or_concat' ys).resolve_left hys
    have hlast : ∀ (p : List Atom) (zs : List α) (z : α), zs ≠ [] →
        p ++ sep.intercalate ((zs ++ [z]).map f) =
          (p ++ sep.intercalate (zs.map f)) ++ sep ++ f z := by
      intro p zs z hzs
      rw [List.map_append, List.map_singleton,
        intercalate_append sep (by simpa using hzs) (by simp), List.intercalate_singleton]
      simp only [List.append_assoc]
    have hitem := hext x (by simp) y (by simp)
    -- A first item on one side only would follow a separator.
    rcases eq_or_ne xs [] with rfl | hx <;> rcases eq_or_ne ys [] with rfl | hy
    · obtain ⟨rfl, rfl⟩ := hitem pre pre' hpre hpre' (by simpa using h)
      exact ⟨rfl, rfl⟩
    · rw [hlast pre' ys y hy, List.nil_append, List.map_singleton, List.intercalate_singleton] at h
      obtain ⟨rfl, -⟩ := hitem pre _ hpre (hsep _) h
      exact absurd (List.suffix_append _ sep) hfirst
    · rw [hlast pre xs x hx, List.nil_append, List.map_singleton, List.intercalate_singleton] at h
      obtain ⟨rfl, -⟩ := hitem _ pre' (hsep _) hpre' h
      exact absurd (List.suffix_append _ sep) hfirst'
    · rw [hlast pre xs x hx, hlast pre' ys y hy] at h
      obtain ⟨hbefore, rfl⟩ := hitem _ _ (hsep _) (hsep _) h
      obtain ⟨rfl, rfl⟩ := ih hx hy
        (fun z hz w hw => hext z (List.mem_append_left _ hz) w (List.mem_append_left _ hw))
        (List.append_cancel_right hbefore)
      exact ⟨rfl, rfl⟩

/-! ## Choices -/

namespace TypeExpr

/-- Whether a type is a symbol or a name. -/
def isReference : TypeExpr → Bool
  | .symbol _ | .named _ => true
  | .union .. | .array _ | .generic .. => false

/-- A choice of a type that is read: a symbol, a word, an array of choices, or a generic type whose
base is a symbol or a word and whose arguments have choices. -/
inductive IsChoice : TypeExpr → Prop where
  /-- A symbol. -/
  | symbol (s : Symbol) : IsChoice (.symbol s)
  /-- A word. -/
  | named (name : String) (h : isWord name = true) : IsChoice (.named name)
  /-- An array of one of several choices. -/
  | array (cs : List TypeExpr) (hne : cs ≠ []) (hcs : ∀ c ∈ cs, IsChoice c) :
    IsChoice (.array (oneOf cs))
  /-- A generic type. Each argument is one of several choices. -/
  | generic (base : TypeExpr) (args : List (List TypeExpr)) (hbase : IsChoice base)
    (href : base.isReference = true) (hne : args ≠ []) (hargsne : ∀ cs ∈ args, cs ≠ [])
    (hargs : ∀ cs ∈ args, ∀ c ∈ cs, IsChoice c) : IsChoice (.generic base (args.map oneOf))

/-- Whether what is written for a choice ends in an atom as the choice does. -/
def EndsAs : TypeExpr → Atom → Prop
  | .symbol s, a => a = .symbol s
  | .named _, a => ∃ c, a = .char c ∧ isMark c = false
  | .array _, a => a = .char ']'
  | .generic .., a => a = .char '>'
  | .union .., _ => False

/-- A word does not end in a mark. -/
theorem not_endsAs_named {name : String} {m : Char} (hm : isMark m = true) :
    ¬ (named name).EndsAs (.char m) := by
  rintro ⟨x, hchar, hx⟩
  cases hchar
  exact absurd (hx.symm.trans hm) Bool.false_ne_true

namespace IsChoice

variable {c : TypeExpr}

/-- A choice is not a union. -/
theorem isUnion (h : IsChoice c) : c.isUnion = false := by
  cases h <;> rfl

/-- A choice ends as it should. -/
theorem exists_concat (h : IsChoice c) : ∃ init last, c.atoms = init ++ [last] ∧ c.EndsAs last := by
  cases h with
  | symbol s => exact ⟨[], .symbol s, rfl, rfl⟩
  | named name h =>
    obtain ⟨hne, hword⟩ := (isWord_iff name).1 h
    obtain ⟨init, last, hlast⟩ := (List.eq_nil_or_concat' name.toList).resolve_left hne
    refine ⟨init.map .char, .char last, ?_, last, rfl, hword last (by simp [hlast])⟩
    rw [atoms_named, Atom.ofText, hlast, List.map_append, List.map_singleton]
  | array cs hne hcs =>
    have hbrackets : Atom.ofText "[]" = Atom.ofText "[" ++ [.char ']'] := rfl
    exact ⟨_, .char ']', by rw [atoms_array, hbrackets, ← List.append_assoc], rfl⟩
  | generic base args => exact ⟨_, .char '>', atoms_generic base _, rfl⟩

/-- Two choices at the end of one text end in one atom. -/
theorem exists_endsAs {d : TypeExpr} (hc : IsChoice c) (hd : IsChoice d) {pre pre' : List Atom}
    (h : pre ++ c.atoms = pre' ++ d.atoms) : ∃ a, c.EndsAs a ∧ d.EndsAs a := by
  obtain ⟨init, a, hatoms, ha⟩ := hc.exists_concat
  obtain ⟨init', b, hatoms', hb⟩ := hd.exists_concat
  rw [hatoms, hatoms', ← List.append_assoc, ← List.append_assoc] at h
  obtain rfl : a = b := List.singleton_inj.1 (List.append_inj_right' h rfl)
  exact ⟨a, ha, hb⟩

/-- What ends in a symbol is the symbol. -/
theorem eq_symbol (h : IsChoice c) {s : Symbol} (hend : c.EndsAs (.symbol s)) :
    c = .symbol s := by
  cases h with
  | symbol s' => rw [Atom.symbol.inj hend]
  | named name => obtain ⟨_, habsurd, -⟩ := hend; cases habsurd
  | array => cases hend
  | generic => cases hend

/-- What ends in the character of a word is a word. -/
theorem exists_named (h : IsChoice c) {x : Char} (hx : isMark x = false)
    (hend : c.EndsAs (.char x)) : ∃ name, isWord name = true ∧ c = .named name := by
  cases h with
  | symbol s => cases hend
  | named name h => exact ⟨name, h, rfl⟩
  | array => cases hend; exact absurd hx (by decide)
  | generic => cases hend; exact absurd hx (by decide)

/-- What ends in a bracket is an array. -/
theorem exists_array (h : IsChoice c) (hend : c.EndsAs (.char ']')) :
    ∃ cs, cs ≠ [] ∧ (∀ d ∈ cs, IsChoice d) ∧ c = .array (oneOf cs) := by
  cases h with
  | symbol s => cases hend
  | named name => exact absurd hend (not_endsAs_named (by decide))
  | array cs hne hcs => exact ⟨cs, hne, hcs, rfl⟩
  | generic => exact absurd (Atom.char.inj hend) (by decide)

/-- What ends in an angle bracket is a generic type. -/
theorem exists_generic (h : IsChoice c) (hend : c.EndsAs (.char '>')) :
    ∃ base args, IsChoice base ∧ args ≠ [] ∧ (∀ cs ∈ args, cs ≠ []) ∧
      (∀ cs ∈ args, ∀ d ∈ cs, IsChoice d) ∧ c = .generic base (args.map oneOf) := by
  cases h with
  | symbol s => cases hend
  | named name => exact absurd hend (not_endsAs_named (by decide))
  | array => exact absurd (Atom.char.inj hend) (by decide)
  | generic base args hbase _ hne hargsne hargs =>
    exact ⟨base, args, hbase, hne, hargsne, hargs, rfl⟩

/-- No choice ends in a parenthesis. -/
theorem append_ne_parenthesis (h : IsChoice c) (pre rest : List Atom) :
    pre ++ c.atoms ≠ rest ++ Atom.ofText ")" := by
  intro heq
  obtain ⟨init, last, hatoms, hend⟩ := h.exists_concat
  rw [hatoms, ← List.append_assoc] at heq
  obtain rfl : last = .char ')' := List.singleton_inj.1 (List.append_inj_right' heq rfl)
  cases h with
  | symbol s => cases hend
  | named name => exact absurd hend (not_endsAs_named (by decide))
  | array => exact absurd (Atom.char.inj hend) (by decide)
  | generic => exact absurd (Atom.char.inj hend) (by decide)

end IsChoice

/-- Whether a choice is known from any text that ends in it. -/
def IsKnown (c : TypeExpr) : Prop :=
  ∀ d, IsChoice d → ∀ pre pre', Delimited pre → Delimited pre' →
    pre ++ c.atoms = pre' ++ d.atoms → pre = pre' ∧ c = d

/-- Whether the first of several choices may follow what has been written. -/
def StartsChoices (pre : List Atom) : Prop :=
  Delimited pre ∧ ¬ Atom.ofText " | " <:+ pre

/-- Several choices may begin after a text that ends in a mark and cannot be the end of a
separator. -/
theorem startsChoices_append (pre : List Atom) {as : List Atom} {m : Char}
    (hlast : as.getLast? = some (.char m)) (hmark : isMark m = true)
    (hlength : as.length ≤ (Atom.ofText " | ").length) (has : ¬ as <:+ Atom.ofText " | ") :
    StartsChoices (pre ++ as) :=
  ⟨Atom.delimited_append pre hlast hmark, Atom.not_suffix_append pre hlength has⟩

section Known

variable {cs ds : List TypeExpr} {pre pre' : List Atom}

/-- Several choices are known from any text that ends in them if each is. -/
theorem oneOf_ext (hcsne : cs ≠ []) (hdsne : ds ≠ []) (hcs : ∀ c ∈ cs, IsKnown c)
    (hds : ∀ d ∈ ds, IsChoice d) (hpre : StartsChoices pre) (hpre' : StartsChoices pre')
    (h : pre ++ (oneOf cs).atoms = pre' ++ (oneOf ds).atoms) : pre = pre' ∧ cs = ds := by
  rw [atoms_oneOf hcsne, atoms_oneOf hdsne] at h
  have hsep : ∀ pre, Delimited (pre ++ Atom.ofText " | ") := fun pre =>
    Atom.delimited_append pre (c := ' ') rfl rfl
  exact intercalate_ext hsep hcsne hdsne (fun c hc d hd => hcs c hc d (hds d hd)) hpre.1 hpre'.1
    hpre.2 hpre'.2 h

/-- An array of choices has brackets after a single choice, or after several in parentheses. -/
theorem atoms_array_oneOf (hne : cs ≠ []) (hcs : ∀ c ∈ cs, IsChoice c) :
    (∃ c, cs = [c] ∧ (array (oneOf cs)).atoms = c.atoms ++ Atom.ofText "[]") ∨
      (array (oneOf cs)).atoms =
        Atom.ofText "(" ++ (oneOf cs).atoms ++ Atom.ofText ")" ++ Atom.ofText "[]" := by
  have hbracketed := isBracketed_oneOf fun c hc => (hcs c hc).isUnion
  rw [atoms_array, hbracketed]
  by_cases hlength : 1 < cs.length
  · exact .inr (by rw [decide_eq_true hlength, if_pos rfl])
  · have hpos := List.length_pos_of_ne_nil hne
    obtain ⟨c, rfl⟩ := List.length_eq_one_iff.1 (show cs.length = 1 by omega)
    exact .inl ⟨c, rfl, rfl⟩

/-- So is an array of them. -/
theorem array_ext (hcsne : cs ≠ []) (hdsne : ds ≠ []) (hcs : ∀ c ∈ cs, IsChoice c)
    (hknown : ∀ c ∈ cs, IsKnown c) (hds : ∀ d ∈ ds, IsChoice d) (hpre : Delimited pre)
    (hpre' : Delimited pre')
    (h : pre ++ (array (oneOf cs)).atoms = pre' ++ (array (oneOf ds)).atoms) :
    pre = pre' ∧ cs = ds := by
  have hstarts : ∀ p, StartsChoices (p ++ Atom.ofText "(") := fun p =>
    startsChoices_append p (m := '(') rfl rfl (by decide) (by decide)
  rcases atoms_array_oneOf hcsne hcs with ⟨c, rfl, hc⟩ | hc <;>
    rcases atoms_array_oneOf hdsne hds with ⟨d, rfl, hd⟩ | hd <;>
    rw [hc, hd] at h <;> simp only [← List.append_assoc] at h <;>
    replace h := List.append_cancel_right h
  -- A single choice does not end in a parenthesis, so both sides have one form.
  · obtain ⟨rfl, rfl⟩ := hknown c List.mem_cons_self d (hds d List.mem_cons_self) _ _ hpre hpre' h
    exact ⟨rfl, rfl⟩
  · exact absurd h ((hcs c List.mem_cons_self).append_ne_parenthesis _ _)
  · exact absurd h.symm ((hds d List.mem_cons_self).append_ne_parenthesis _ _)
  · obtain ⟨hopen, rfl⟩ := oneOf_ext hcsne hdsne hknown hds (hstarts pre) (hstarts pre')
      (List.append_cancel_right h)
    exact ⟨List.append_cancel_right hopen, rfl⟩

/-- A generic type is known from any text that ends in it if its base and the choices of its
arguments are. -/
theorem generic_ext {base base' : TypeExpr} {args args' : List (List TypeExpr)}
    (hbase : IsKnown base) (hbase' : IsChoice base') (hne : args ≠ []) (hne' : args' ≠ [])
    (hargsne : ∀ cs ∈ args, cs ≠ []) (hargsne' : ∀ ds ∈ args', ds ≠ [])
    (hargs : ∀ cs ∈ args, ∀ c ∈ cs, IsKnown c) (hargs' : ∀ ds ∈ args', ∀ d ∈ ds, IsChoice d)
    (hpre : Delimited pre) (hpre' : Delimited pre')
    (h : pre ++ (generic base (args.map oneOf)).atoms =
      pre' ++ (generic base' (args'.map oneOf)).atoms) :
    pre = pre' ∧ base = base' ∧ args = args' := by
  have hsep : ∀ p, StartsChoices (p ++ Atom.ofText ", ") := fun p =>
    startsChoices_append p (m := ' ') rfl rfl (by decide) (by decide)
  have hstarts : ∀ p, StartsChoices (p ++ Atom.ofText "<") := fun p =>
    startsChoices_append p (m := '<') rfl rfl (by decide) (by decide)
  have hfirst : ∀ p, ¬ Atom.ofText ", " <:+ p ++ Atom.ofText "<" := fun p =>
    Atom.not_suffix_append p (by decide) (by decide)
  have hargument : ∀ cs ∈ args, ∀ ds ∈ args', ∀ p p', StartsChoices p → StartsChoices p' →
      p ++ (oneOf cs).atoms = p' ++ (oneOf ds).atoms → p = p' ∧ cs = ds :=
    fun cs hcs ds hds _ _ => oneOf_ext (hargsne cs hcs) (hargsne' ds hds) (hargs cs hcs)
      (hargs' ds hds)
  -- The arguments are known first, then the base in front of them.
  simp only [atoms_generic, List.map_map, ← List.append_assoc] at h
  obtain ⟨hbefore, rfl⟩ := intercalate_ext hsep hne hne' hargument (hstarts _) (hstarts _)
    (hfirst _) (hfirst _) (List.append_cancel_right h)
  obtain ⟨rfl, rfl⟩ := hbase base' hbase' pre pre' hpre hpre' (List.append_cancel_right hbefore)
  exact ⟨rfl, rfl, rfl⟩

end Known

/-- Every choice is known from any text that ends in it. -/
theorem IsChoice.isKnown {c : TypeExpr} (h : IsChoice c) : IsKnown c := by
  -- The last atom says which kind of choice the other one is, and then their parts are compared.
  induction h with
  | symbol s =>
    intro d hd pre pre' _ _ heq
    obtain ⟨a, rfl, hend⟩ := (IsChoice.symbol s).exists_endsAs hd heq
    obtain rfl := hd.eq_symbol hend
    exact ⟨List.append_cancel_right heq, rfl⟩
  | named name h =>
    intro d hd pre pre' hpre hpre' heq
    obtain ⟨a, ⟨x, rfl, hx⟩, hend⟩ := (IsChoice.named name h).exists_endsAs hd heq
    obtain ⟨name', h', rfl⟩ := hd.exists_named hx hend
    rw [atoms_named, atoms_named] at heq
    obtain ⟨rfl, rfl⟩ := Atom.append_word_inj h h' hpre hpre' heq
    exact ⟨rfl, rfl⟩
  | array cs hne hcs ih =>
    intro d hd pre pre' hpre hpre' heq
    obtain ⟨a, rfl, hend⟩ := (IsChoice.array cs hne hcs).exists_endsAs hd heq
    obtain ⟨ds, hdsne, hds, rfl⟩ := hd.exists_array hend
    obtain ⟨rfl, rfl⟩ := array_ext hne hdsne hcs ih hds hpre hpre' heq
    exact ⟨rfl, rfl⟩
  | generic base args hbase href hne hargsne hargs ihbase ihargs =>
    intro d hd pre pre' hpre hpre' heq
    obtain ⟨a, rfl, hend⟩ :=
      (IsChoice.generic base args hbase href hne hargsne hargs).exists_endsAs hd heq
    obtain ⟨base', args', hbase', hne', hargsne', hargs', rfl⟩ := hd.exists_generic hend
    obtain ⟨rfl, rfl, rfl⟩ :=
      generic_ext ihbase hbase' hne hne' hargsne hargsne' ihargs hargs' hpre hpre' heq
    exact ⟨rfl, rfl⟩

end TypeExpr

end ModuleAssembly
