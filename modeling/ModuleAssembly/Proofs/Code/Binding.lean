import Mathlib.Data.List.Forall2
import ModuleAssembly.Proofs.Validation.Blocks

/-!
# Arguments and their placeholders

The arguments of a code block go to the placeholders of its format in order (`Segment.boundParts`).
If there are as many of them, each goes to one placeholder and none is left over
(`Segment.isBinding_boundParts`). The segments are then those of the parts with their arguments, up
to the first text for a type that is a bad reference (`Segment.isRun_boundParts`).

A file that is read from a document has only blocks whose arguments go with their placeholders, so
its blocks never run out of them (`FileModel.isRun_of_valid`).
-/

namespace ModuleAssembly

namespace Segment

/-- Parts with their arguments: the next one for a placeholder, none for text. -/
def boundParts : List Format.Part → List Argument → List (Format.Part × Option Argument)
  | [], _ => []
  | part :: parts, args =>
    if part.isPlaceholder then (part, args.head?) :: boundParts parts args.tail
    else (part, none) :: boundParts parts args

/-- Whether arguments go with parts in order: the placeholders, and no other parts, have one each,
and these are all the arguments there are. -/
structure IsBinding (parts : List Format.Part) (args : List Argument)
    (bound : List (Format.Part × Option Argument)) : Prop where
  /-- The parts are all there, in order. -/
  map_fst : bound.map Prod.fst = parts
  /-- So are the arguments. -/
  filterMap_snd : bound.filterMap Prod.snd = args
  /-- A part has an argument if it is a placeholder. -/
  isSome_snd : ∀ pair ∈ bound, pair.2.isSome = pair.1.isPlaceholder

/-- The segment of a part with its argument. -/
inductive Fills : Format.Part × Option Argument → Segment → Prop where
  /-- Text is written as it is. -/
  | text (s : String) : Fills (.text s, none) (.text s)
  /-- A type stands for itself. -/
  | type (t : TypeExpr) : Fills (.type, some (.type t)) (.type t)
  /-- A text stands for the type that it is the short form of. -/
  | shorthand {s : String} {t : TypeExpr} (h : TypeExpr.ofShorthand? s = some t) :
      Fills (.type, some (.text s)) (.type t)
  /-- A literal is made of any argument. -/
  | literal (a : Argument) : Fills (.literal, some a) (.literal a)
  /-- So is a string literal. -/
  | string (a : Argument) : Fills (.string, some a) (.string a)

/-- Whether an output is that of parts with their arguments: the segments of all of them, or those
before the first text for a type that is a bad reference, which stops the output. -/
def IsRun (bound : List (Format.Part × Option Argument)) (output : Output Segment) : Prop :=
  (∃ segments, output = .ofList segments ∧ List.Forall₂ Fills bound segments) ∨
    ∃ before s after segments, bound = before ++ (.type, some (.text s)) :: after ∧
      Symbol.IsBadSpec s ∧ output = ⟨segments, some (.badReference s)⟩ ∧
        List.Forall₂ Fills before segments

namespace IsRun

variable {pair : Format.Part × Option Argument} {bound : List (Format.Part × Option Argument)}
  {output : Output Segment}

/-- Without parts there is no segment. -/
theorem nil : IsRun [] .empty :=
  .inl ⟨[], rfl, .nil⟩

/-- The segment of the first part comes before the output of the others. -/
theorem cons {segment : Segment} (hfirst : Fills pair segment) (h : IsRun bound output) :
    IsRun (pair :: bound) (.single segment ++ output) := by
  rcases h with ⟨segments, rfl, hall⟩ | ⟨before, s, after, segments, rfl, hbad, rfl, hall⟩
  · exact .inl ⟨segment :: segments, rfl, .cons hfirst hall⟩
  · exact .inr ⟨pair :: before, s, after, segment :: segments, rfl, hbad, rfl,
      .cons hfirst hall⟩

/-- A bad reference at the first part stops the output. -/
theorem stop {s : String} (hbad : Symbol.IsBadSpec s) (output : Output Segment) :
    IsRun ((.type, some (.text s)) :: bound) (.stop (.badReference s) ++ output) :=
  .inr ⟨[], s, bound, [], rfl, hbad, rfl, .nil⟩

/-- The output never stops for an argument that is missing. -/
theorem fault_ne_missingArgument (h : IsRun bound output) :
    output.fault ≠ some .missingArgument := by
  rcases h with ⟨segments, rfl, -⟩ | ⟨before, s, after, segments, -, -, rfl, -⟩
  · intro hfault
    cases hfault
  · intro hfault
    cases hfault

/-- What may stand for a type, at the first part, gives a segment or stops the output. -/
theorem type {a : Argument} (ha : a.isTypeLike = true) (h : IsRun bound output) :
    IsRun ((.type, some a) :: bound) (ofTypeArgument a ++ output) := by
  cases a with
  | type t => exact h.cons (.type t)
  | text s =>
    cases hs : TypeExpr.ofShorthand? s with
    | none =>
      have hstop : ofTypeArgument (.text s) = .stop (.badReference s) := by
        simp [ofTypeArgument, hs]
      rw [hstop]
      exact stop (TypeExpr.ofShorthand?_eq_none_iff.1 hs) output
    | some t =>
      have hsingle : ofTypeArgument (.text s) = .single (.type t) := by
        simp [ofTypeArgument, hs]
      rw [hsingle]
      exact h.cons (.shorthand hs)
  | int _ | float _ | bool _ => cases ha

end IsRun

variable {parts : List Format.Part} {args : List Argument}

/-- A placeholder goes with the first argument. -/
theorem boundParts_of_isPlaceholder {part : Format.Part} (h : part.isPlaceholder = true)
    (a : Argument) : boundParts (part :: parts) (a :: args) =
      (part, some a) :: boundParts parts args :=
  if_pos h

/-- Any other part goes with none. -/
theorem boundParts_of_not {part : Format.Part} (h : ¬part.isPlaceholder = true) :
    boundParts (part :: parts) args = (part, none) :: boundParts parts args :=
  if_neg h

/-- If there are as many arguments as placeholders and the first part is a placeholder, then there
is an argument for it, and the others go with the other parts. -/
theorem exists_cons_of_count {part : Format.Part} (hpart : part.isPlaceholder = true)
    (hcount : (CodeBlock.placeholders (part :: parts)).length = args.length) :
    ∃ a rest, args = a :: rest ∧ (CodeBlock.placeholders parts).length = rest.length := by
  rw [CodeBlock.placeholders, List.filter_cons_of_pos hpart] at hcount
  cases args with
  | nil => cases hcount
  | cons a rest => exact ⟨a, rest, rfl, Nat.succ.inj hcount⟩

/-- If the first part is no placeholder, then all arguments go with the other parts. -/
theorem count_of_not {part : Format.Part} (hpart : ¬part.isPlaceholder = true)
    (hcount : (CodeBlock.placeholders (part :: parts)).length = args.length) :
    (CodeBlock.placeholders parts).length = args.length := by
  rwa [CodeBlock.placeholders, List.filter_cons_of_neg hpart] at hcount

/-- The arguments that go with the parts in order are all there are, if there are as many as
placeholders. -/
theorem isBinding_boundParts
    (hcount : (CodeBlock.placeholders parts).length = args.length) :
    IsBinding parts args (boundParts parts args) := by
  induction parts generalizing args with
  | nil =>
    obtain rfl := List.length_eq_zero_iff.1 hcount.symm
    exact ⟨rfl, rfl, fun pair hpair => absurd hpair List.not_mem_nil⟩
  | cons part parts ih =>
    by_cases hpart : part.isPlaceholder = true
    · obtain ⟨a, rest, rfl, hrest⟩ := exists_cons_of_count hpart hcount
      have hothers := ih hrest
      rw [boundParts_of_isPlaceholder hpart]
      refine ⟨?_, ?_, List.forall_mem_cons.2 ⟨hpart.symm, hothers.isSome_snd⟩⟩
      · rw [List.map_cons, hothers.map_fst]
      · rw [List.filterMap_cons, hothers.filterMap_snd]
    · have hothers := ih (count_of_not hpart hcount)
      have hfirst : (none : Option Argument).isSome = part.isPlaceholder :=
        (Bool.eq_false_iff.2 hpart).symm
      rw [boundParts_of_not hpart]
      refine ⟨?_, ?_, List.forall_mem_cons.2 ⟨hfirst, hothers.isSome_snd⟩⟩
      · rw [List.map_cons, hothers.map_fst]
      · rw [List.filterMap_cons, hothers.filterMap_snd]

/-- An argument stands at its placeholder in the list of placeholders with their arguments. -/
theorem mem_zip_of_mem_boundParts {part : Format.Part} {a : Argument}
    (hcount : (CodeBlock.placeholders parts).length = args.length)
    (h : (part, some a) ∈ boundParts parts args) :
    (part, a) ∈ (CodeBlock.placeholders parts).zip args := by
  induction parts generalizing args with
  | nil => cases h
  | cons first parts ih =>
    by_cases hfirst : first.isPlaceholder = true
    · obtain ⟨b, rest, rfl, hrest⟩ := exists_cons_of_count hfirst hcount
      rw [boundParts_of_isPlaceholder hfirst] at h
      rw [CodeBlock.placeholders, List.filter_cons_of_pos hfirst]
      rcases List.mem_cons.1 h with heq | hmem
      · cases heq
        exact List.mem_cons_self
      · exact List.mem_cons_of_mem _ (ih hrest hmem)
    · -- The first part has no argument, so it is another one that has.
      rw [boundParts_of_not hfirst] at h
      rw [CodeBlock.placeholders, List.filter_cons_of_neg hfirst]
      rcases List.mem_cons.1 h with heq | hmem
      · cases heq
      · exact ih (count_of_not hfirst hcount) hmem

/-- The segments of parts are those of the parts with their arguments, up to the first bad
reference, if there are as many arguments as placeholders and each may stand for a type where one is
asked for. -/
theorem isRun_boundParts
    (hcount : (CodeBlock.placeholders parts).length = args.length)
    (htypes : ∀ a, (Format.Part.type, some a) ∈ boundParts parts args → a.isTypeLike = true) :
    IsRun (boundParts parts args) (bind parts args) := by
  induction parts generalizing args with
  | nil => exact .nil
  | cons part parts ih =>
    by_cases hpart : part.isPlaceholder = true
    · obtain ⟨a, rest, rfl, hrest⟩ := exists_cons_of_count hpart hcount
      rw [boundParts_of_isPlaceholder hpart] at htypes ⊢
      have hrun := ih hrest fun b hb => htypes b (List.mem_cons_of_mem _ hb)
      cases part with
      | text s => cases hpart
      | type => exact hrun.type (htypes a List.mem_cons_self)
      | literal => exact hrun.cons (.literal a)
      | string => exact hrun.cons (.string a)
    · rw [boundParts_of_not hpart] at htypes ⊢
      have hrun := ih (count_of_not hpart hcount) fun b hb => htypes b (List.mem_cons_of_mem _ hb)
      cases part with
      | text s => exact hrun.cons (.text s)
      | type | literal | string => exact absurd rfl hpart

end Segment

/-- What may stand for a type is a type or a text. -/
theorem Argument.exists_of_isTypeLike {a : Argument} (h : a.isTypeLike = true) :
    (∃ t, a = .type t) ∨ ∃ s, a = .text s := by
  cases a with
  | type t => exact .inl ⟨t, rfl⟩
  | text s => exact .inr ⟨s, rfl⟩
  | int _ | float _ | bool _ => cases h

/-- Wherever a code block stands in a file that is read from a document, its format has parts, with
as many placeholders as it has arguments. These go with the placeholders in order, no truth value or
number with one for a type. The segments of the block are those of its parts, up to the first text
for a type that is a bad reference; no argument is ever missing. -/
theorem FileModel.isRun_of_valid {v : Value} {f : FileModel} (h : ofValue v = .valid f) :
    ∀ b ∈ f.blocks, ∃ parts bound, Format.parse b.format = .ok parts ∧
      (CodeBlock.placeholders parts).length = b.args.length ∧
      Segment.IsBinding parts b.args bound ∧
      (∀ a, (.type, some a) ∈ bound → (∃ t, a = .type t) ∨ ∃ s, a = .text s) ∧
      Segment.IsRun bound b.segments ∧ b.segments.fault ≠ some .missingArgument := by
  intro b hb
  obtain ⟨parts, hparts, hcount, htypes⟩ :=
    CodeBlock.check_eq_ok_iff.1 (isChecked_of_valid h b hb)
  have hlike : ∀ a, (Format.Part.type, some a) ∈ Segment.boundParts parts b.args →
      a.isTypeLike = true := fun a ha => htypes a (Segment.mem_zip_of_mem_boundParts hcount ha)
  have hrun : Segment.IsRun (Segment.boundParts parts b.args) b.segments := by
    rw [CodeBlock.segments, hparts]
    exact Segment.isRun_boundParts hcount hlike
  exact ⟨parts, Segment.boundParts parts b.args, hparts, hcount,
    Segment.isBinding_boundParts hcount,
    fun a ha => Argument.exists_of_isTypeLike (hlike a ha), hrun, hrun.fault_ne_missingArgument⟩

/-- A file with code in the body of a class's method and in the first value of an interface's
property, which takes a bad reference for a type. -/
theorem FileModel.isRun_of_valid_nested :
    let body : CodeBlock := ⟨"return new %T(%S);", [.text "Item@./item", .int 1]⟩
    let initial : CodeBlock := ⟨"%L as %T", [.bool true, .text "@./log"]⟩
    let doc : Value := .object
      [("path", .text "a.ts"),
        ("members", .list
          [.object [("kind", .text "class"), ("name", .text "C"),
              ("methods", .list [.object [("name", .text "m"), ("body", .object
                [("format", .text "return new %T(%S);"),
                  ("args", .list [.text "Item@./item", .int 1])])]])],
            .object [("kind", .text "interface"), ("name", .text "I"),
              ("properties", .list [.object [("name", .text "p"), ("initializer", .object
                [("format", .text "%L as %T"),
                  ("args", .list [.bool true, .text "@./log"])])]])]])]
    ∃ f, ofValue doc = .valid f ∧ f.blocks = [body, initial] ∧
      body.segments.fault = none ∧ initial.segments.fault = some (.badReference "@./log") ∧
      (∃ parts bound, Format.parse body.format = .ok parts ∧
        Segment.IsBinding parts body.args bound ∧ Segment.IsRun bound body.segments) ∧
      ∃ parts bound, Format.parse initial.format = .ok parts ∧
        Segment.IsBinding parts initial.args bound ∧ Segment.IsRun bound initial.segments := by
  intro body initial doc
  obtain ⟨f, hread, hblocks⟩ : ∃ f, ofValue doc = .valid f ∧ f.blocks = [body, initial] :=
    ⟨_, rfl, rfl⟩
  obtain ⟨parts, bound, hparts, -, hbound, -, hrun, -⟩ :=
    isRun_of_valid hread body (by simp [hblocks])
  obtain ⟨parts', bound', hparts', -, hbound', -, hrun', -⟩ :=
    isRun_of_valid hread initial (by simp [hblocks])
  have hcomplete : body.segments.fault = none := by decide
  have hstopped : initial.segments.fault = some (.badReference "@./log") := by decide
  exact ⟨f, hread, hblocks, hcomplete, hstopped, ⟨parts, bound, hparts, hbound, hrun⟩,
    parts', bound', hparts', hbound', hrun'⟩

end ModuleAssembly
