import ModuleAssembly.Proofs.Code.References

/-!
# Texts that stand for types

A code block may give a type as a text, which is read as one only when the block is written. Such a
text may be replaced by the type that it stands for (`CodeBlock.expanded`): the block has the same
segments (`CodeBlock.segments_expanded`), and what is asked of a block is asked of it just as well
(`CodeBlock.check_expanded`). A text that stands for no type stays, and with it the fault that it
causes.
-/

namespace ModuleAssembly

/-- The placeholders of a format, in order; none if it has no parts. -/
def Format.placeholders (format : String) : List Format.Part :=
  match parse format with
  | .ok parts => CodeBlock.placeholders parts
  | .error _ => []

/-- An argument with a text replaced by the type that it stands for, if it stands for one. -/
def Argument.expanded : Argument → Argument
  | .text s => (TypeExpr.ofShorthand? s).elim (.text s) .type
  | a => a

/-- An argument, expanded if it is bound to the placeholder of a type. -/
def Argument.expandedFor (bound : Bool) (a : Argument) : Argument :=
  if bound then a.expanded else a

/-- Arguments, with those expanded that are bound to the placeholder of a type. -/
def Argument.expandAll (slots : List Format.Part) (args : List Argument) : List Argument :=
  args.mapIdx fun i a => a.expandedFor (slots[i]? == some .type)

/-- A code block with the texts that stand for types replaced by the types. -/
def CodeBlock.expanded (b : CodeBlock) : CodeBlock :=
  { b with args := Argument.expandAll (Format.placeholders b.format) b.args }

namespace Argument

/-- The first argument is bound to the first placeholder, and the others to the others. -/
theorem expandAll_cons (slot : Format.Part) (slots : List Format.Part) (a : Argument)
    (args : List Argument) :
    expandAll (slot :: slots) (a :: args) =
      a.expandedFor (slot == .type) :: expandAll slots args := by
  simp [expandAll, List.mapIdx_cons]

/-- A text that is expanded stands for the same type. -/
theorem ofTypeArgument_expanded (a : Argument) :
    Segment.ofTypeArgument a.expanded = Segment.ofTypeArgument a := by
  cases a with
  | text s =>
    cases hs : TypeExpr.ofShorthand? s with
    | none => simp [expanded, hs]
    | some t => simp [expanded, hs, Segment.ofTypeArgument]
  | type _ | int _ | float _ | bool _ => rfl

/-- What can stand for a type is what can when it is expanded. -/
theorem isTypeLike_expanded (a : Argument) : a.expanded.isTypeLike = a.isTypeLike := by
  cases a with
  | text s =>
    cases hs : TypeExpr.ofShorthand? s with
    | none => simp [expanded, hs]
    | some t => simp [expanded, hs, isTypeLike]
  | type _ | int _ | float _ | bool _ => rfl

end Argument

/-- Expanded arguments are bound to the same segments. -/
theorem Segment.bind_expandAll (parts : List Format.Part) (args : List Argument) :
    bind parts (Argument.expandAll (CodeBlock.placeholders parts) args) = bind parts args := by
  induction parts generalizing args with
  | nil => rfl
  | cons part parts ih =>
    -- Text takes no argument, and every other part takes the first.
    cases part with
    | text s =>
      have hslots : CodeBlock.placeholders (.text s :: parts) = CodeBlock.placeholders parts := rfl
      rw [hslots, bind, bind, ih]
    | type =>
      cases args with
      | nil => rfl
      | cons a args =>
        have hslots : CodeBlock.placeholders (.type :: parts) =
            .type :: CodeBlock.placeholders parts := rfl
        have hfirst : a.expandedFor (Format.Part.type == .type) = a.expanded := rfl
        rw [hslots, Argument.expandAll_cons, hfirst, bind, bind, ih,
          Argument.ofTypeArgument_expanded]
    | literal | string =>
      cases args with
      | nil => rfl
      | cons a args =>
        exact (congrArg (bind _) (Argument.expandAll_cons _ _ a args)).trans
          (congrArg (_ ++ ·) (ih args))

/-- Expanded arguments stand for types where the arguments do. -/
theorem Argument.areTypeLike_expandAll (slots : List Format.Part) (args : List Argument) :
    (∀ a, (Format.Part.type, a) ∈ slots.zip (expandAll slots args) → a.isTypeLike = true) ↔
      ∀ a, (Format.Part.type, a) ∈ slots.zip args → a.isTypeLike = true := by
  induction slots generalizing args with
  | nil => simp
  | cons slot slots ih =>
    cases args with
    | nil => rfl
    | cons a args =>
      have hcons : ∀ (x : Argument) (xs : List Argument),
          (∀ y, (Format.Part.type, y) ∈ (slot :: slots).zip (x :: xs) → y.isTypeLike = true) ↔
            (slot = .type → x.isTypeLike = true) ∧
              ∀ y, (Format.Part.type, y) ∈ slots.zip xs → y.isTypeLike = true := by
        intro x xs
        rw [List.zip_cons_cons]
        grind
      rw [expandAll_cons, hcons, hcons, ih]
      refine and_congr_left fun _ => imp_congr_right fun hslot => ?_
      have hbound : a.expandedFor (slot == .type) = a.expanded := by rw [hslot]; rfl
      rw [hbound, isTypeLike_expanded]

namespace CodeBlock

/-- A block has the segments that it has when it is expanded. -/
theorem segments_expanded (b : CodeBlock) : b.expanded.segments = b.segments := by
  unfold segments expanded Format.placeholders
  cases Format.parse b.format with
  | ok parts => exact Segment.bind_expandAll parts b.args
  | error fault => rfl

/-- A block satisfies what is asked of it exactly if it does when it is expanded. -/
theorem check_expanded (b : CodeBlock) : b.expanded.check = .ok () ↔ b.check = .ok () := by
  rw [check_eq_ok_iff, check_eq_ok_iff]
  refine exists_congr fun parts => and_congr_right fun hparts => ?_
  have hslots : Format.placeholders b.format = placeholders parts := by
    rw [Format.placeholders, show Format.parse b.format = .ok parts from hparts]
  have hargs : b.expanded.args = Argument.expandAll (placeholders parts) b.args := by
    rw [← hslots]
    rfl
  rw [hargs, Argument.areTypeLike_expandAll, Argument.expandAll, List.length_mapIdx]

end CodeBlock

end ModuleAssembly
