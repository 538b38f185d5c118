import ModuleAssembly.Proofs.Stream.Statement

/-!
# The text of a stream

What a writer adds to the rendered text depends on its line and not on what it has written. Two
writers on lines of one kind, of which one is ahead by a text (`Writer.Ahead`), stay ahead by this
text whatever both write (`Writer.Ahead.write`), and also if they write different symbols that are
bound by the same texts (`Writer.Ahead.write_alike`). So pieces that are written at the start of a
line of the outermost level add the text that a new writer makes of them (`Writer.rendered_write`).
-/

namespace ModuleAssembly

/-- A text of whole lines: it is empty, or a line break ends it. -/
def Text.IsWholeLines (s : String) : Prop :=
  s = "" ∨ ∃ t, s = t ++ "\n"

namespace Token

/-- The text of two streams. -/
theorem render_append (table : RenameTable) (tokens others : List Token) :
    render table (tokens ++ others) = render table tokens ++ render table others := by
  simp [render]

/-- The text of one token. -/
theorem render_singleton (table : RenameTable) (t : Token) :
    render table [t] = resolve table t := by
  simp [render]

end Token

/-- Two pieces add one text, wherever they are written: they are the same, or bind symbols that are
bound by one text. -/
inductive Piece.Alike (table : RenameTable) : Piece → Piece → Prop where
  | same (p : Piece) : Alike table p p
  | binding {s r : Symbol}
      (h : Token.resolve table (.binding s) = Token.resolve table (.binding r)) :
      Alike table (.binding s) (.binding r)

namespace Writer

/-- The text of what a writer has written. -/
def rendered (table : RenameTable) (w : Writer) : String :=
  Token.render table w.tokens

variable {table : RenameTable}

/-- A token in front of the latest ones comes last in the text. -/
theorem rendered_eq_of_latest_cons {w v : Writer} {t : Token} (h : w.latest = t :: v.latest) :
    w.rendered table = v.rendered table ++ Token.resolve table t := by
  rw [rendered, tokens, h, List.reverse_cons, Token.render_append, Token.render_singleton]
  rfl

/-- The text depends on the tokens alone. -/
theorem rendered_congr {w v : Writer} (h : w.latest = v.latest) :
    w.rendered table = v.rendered table := by
  rw [rendered, tokens, h]
  rfl

/-- Text that is added comes last, as a token of its own or as part of the latest one. -/
theorem rendered_append (w : Writer) (s : String) :
    (w.append s).rendered table = w.rendered table ++ s := by
  obtain ⟨t, older, hlatest, hadd⟩ | ⟨-, hadd⟩ := w.latest_append_cases s
  · -- Both texts end in what is older, followed by one text.
    have hold : w.rendered table =
        ({ w with latest := older } : Writer).rendered table ++ Token.resolve table (.text t) :=
      rendered_eq_of_latest_cons hlatest
    have hnew : (w.append s).rendered table =
        ({ w with latest := older } : Writer).rendered table ++
          Token.resolve table (.text (t ++ s)) :=
      rendered_eq_of_latest_cons hadd
    rw [hnew, hold]
    exact (String.append_assoc ..).symm
  · exact rendered_eq_of_latest_cons hadd

/-- At the outermost level text that is put comes last as it is. -/
theorem rendered_putText {w : Writer} (h : w.level = 0) (s : String) :
    (w.putText s).rendered table = w.rendered table ++ s := by
  -- Each character is added to the text, so the induction is over characters and writers alike.
  have hchars : ∀ cs : List Char, ∀ v : Writer, v.level = 0 →
      (cs.foldl putChar v).rendered table = v.rendered table ++ String.ofList cs := by
    intro cs
    induction cs with
    | nil => exact fun v _ => String.append_empty.symm
    | cons c cs ih =>
      intro v hv
      have hc : (v.putChar c).rendered table = v.rendered table ++ String.singleton c := by
        rw [rendered_congr (latest_putChar hv c), rendered_append]
      rw [List.foldl_cons, ih _ (by rwa [level_putChar]), hc, String.append_assoc,
        String.ofList_cons]
  have hs := hchars s.toList w h
  rwa [String.ofList_toList] at hs

/-! ## The line of a writer -/

/-- Text that is added leaves the unit of indentation. -/
theorem unit_append (w : Writer) (s : String) : (w.append s).unit = w.unit := by
  unfold append
  split
  · rfl
  · rfl

/-- Text that is added does not start a line. -/
theorem atLineStart_append (w : Writer) (s : String) :
    (w.append s).atLineStart = w.atLineStart := by
  unfold append
  split
  · rfl
  · rfl

/-- A line that has begun is not at its start. -/
theorem atLineStart_beginLine (w : Writer) : w.beginLine.atLineStart = false := by
  unfold beginLine
  split
  · dsimp only
    split
    · rfl
    · exact atLineStart_append _ _
  · next h => simpa using h

/-- After a line break a line starts. -/
theorem atLineStart_putText_newline (w : Writer) : (w.putText "\n").atLineStart = true :=
  rfl

/-- One writer is ahead of another by a text, and both are on a line of the same kind. -/
structure Ahead (table : RenameTable) (front : String) (w v : Writer) : Prop where
  /-- Both indent by the same unit. -/
  unit_eq : w.unit = v.unit
  /-- Both are at the same level. -/
  level_eq : w.level = v.level
  /-- Both are at the start of a line, or neither is. -/
  atLineStart_eq : w.atLineStart = v.atLineStart
  /-- One has written the text in front of what the other has written. -/
  rendered_eq : w.rendered table = front ++ v.rendered table

namespace Ahead

variable {front : String} {w v : Writer}

/-- Both may add a text. -/
theorem append (h : Ahead table front w v) (s : String) :
    Ahead table front (w.append s) (v.append s) where
  unit_eq := by rw [unit_append, unit_append, h.unit_eq]
  level_eq := by rw [level_append, level_append, h.level_eq]
  atLineStart_eq := by rw [atLineStart_append, atLineStart_append, h.atLineStart_eq]
  rendered_eq := by
    rw [rendered_append, rendered_append, h.rendered_eq, String.append_assoc]

/-- Both may note where the line is. -/
theorem setLineStart (h : Ahead table front w v) (atLineStart : Bool) :
    Ahead table front { w with atLineStart } { v with atLineStart } :=
  ⟨h.unit_eq, h.level_eq, rfl, h.rendered_eq⟩

/-- Both may begin a line, with the same indentation. -/
theorem beginLine (h : Ahead table front w v) :
    Ahead table front w.beginLine v.beginLine := by
  unfold Writer.beginLine
  rw [h.atLineStart_eq]
  split
  · dsimp only
    by_cases houter : v.level = 0
    · rw [if_pos houter, if_pos (h.level_eq.trans houter)]
      exact h.setLineStart false
    · have hindentation : ({ w with atLineStart := false } : Writer).indentation =
          ({ v with atLineStart := false } : Writer).indentation := by
        simp only [indentation, h.level_eq, h.unit_eq]
      rw [if_neg houter, if_neg (h.level_eq ▸ houter), hindentation]
      exact (h.setLineStart false).append _
  · exact h

/-- Both may put a character. -/
theorem putChar (h : Ahead table front w v) (c : Char) :
    Ahead table front (w.putChar c) (v.putChar c) := by
  unfold Writer.putChar
  split
  · exact (h.append "\n").setLineStart true
  · exact h.beginLine.append _

/-- Both may put a text. -/
theorem putText (h : Ahead table front w v) (s : String) :
    Ahead table front (w.putText s) (v.putText s) := by
  unfold Writer.putText
  induction s.toList generalizing w v with
  | nil => exact h
  | cons c cs ih => exact ih (h.putChar c)

/-- Both may put a symbol, each its own if the texts of the two are the same. -/
theorem putSymbol (h : Ahead table front w v) {t u : Token}
    (htext : Token.resolve table t = Token.resolve table u) :
    Ahead table front (w.putSymbol t) (v.putSymbol u) where
  unit_eq := h.beginLine.unit_eq
  level_eq := h.beginLine.level_eq
  atLineStart_eq := h.beginLine.atLineStart_eq
  rendered_eq := by
    have hw : (w.putSymbol t).rendered table =
        w.beginLine.rendered table ++ Token.resolve table t :=
      rendered_eq_of_latest_cons rfl
    have hv : (v.putSymbol u).rendered table =
        v.beginLine.rendered table ++ Token.resolve table u :=
      rendered_eq_of_latest_cons rfl
    rw [hw, hv, h.beginLine.rendered_eq, htext, String.append_assoc]

/-- Both may write a piece. -/
theorem put (h : Ahead table front w v) (p : Piece) :
    Ahead table front (w.put p) (v.put p) := by
  cases p with
  | text s => exact h.putText s
  | usage s => exact h.putSymbol rfl
  | binding s => exact h.putSymbol rfl
  | indent => exact ⟨h.unit_eq, congrArg (· + 1) h.level_eq, h.atLineStart_eq, h.rendered_eq⟩
  | unindent => exact ⟨h.unit_eq, congrArg (· - 1) h.level_eq, h.atLineStart_eq, h.rendered_eq⟩
  | freshLine =>
    -- Both end the line, or neither needs to.
    simp only [Writer.put]
    rw [h.atLineStart_eq]
    split
    · exact h
    · exact h.putText "\n"

/-- Both may write pieces, each its own if they are alike. -/
theorem write_alike (h : Ahead table front w v) {ps qs : List Piece}
    (hpieces : List.Forall₂ (Piece.Alike table) ps qs) :
    Ahead table front (w.write ps) (v.write qs) := by
  unfold Writer.write
  induction hpieces generalizing w v with
  | nil => exact h
  | cons hpiece _ ih =>
    cases hpiece with
    | same => exact ih (h.put _)
    | binding htext => exact ih (h.putSymbol htext)

/-- Both may write the same pieces. -/
theorem write (h : Ahead table front w v) (ps : List Piece) :
    Ahead table front (w.write ps) (v.write ps) :=
  h.write_alike (List.forall₂_same.2 fun p _ => .same p)

end Ahead

/-- A writer at the start of a line of the outermost level is ahead of a new one by its text. -/
theorem ahead_new {w : Writer} (hlevel : w.level = 0) (hline : w.atLineStart = true) :
    Ahead table (w.rendered table) w { unit := w.unit } where
  unit_eq := rfl
  level_eq := hlevel
  atLineStart_eq := hline
  rendered_eq := by
    have hnew : ({ unit := w.unit } : Writer).rendered table = "" := rfl
    rw [hnew, String.append_empty]

/-- At the start of a line of the outermost level, pieces add the text that a new writer makes of
them. -/
theorem rendered_write {w : Writer} (hlevel : w.level = 0) (hline : w.atLineStart = true)
    (ps : List Piece) :
    (w.write ps).rendered table =
      w.rendered table ++ (({ unit := w.unit } : Writer).write ps).rendered table :=
  ((ahead_new hlevel hline).write ps).rendered_eq

/-! ## The unit of indentation -/

/-- A text leaves the unit of indentation. -/
theorem unit_putText (w : Writer) (s : String) : (w.putText s).unit = w.unit :=
  putText_preserves (P := fun v => v.unit = w.unit)
    (fun v s hv => (unit_append v s).trans hv) (fun _ _ hv => hv) rfl s

/-- The start of a line leaves the unit of indentation. -/
theorem unit_beginLine (w : Writer) : w.beginLine.unit = w.unit :=
  beginLine_preserves (P := fun v => v.unit = w.unit)
    (fun v s hv => (unit_append v s).trans hv) (fun _ _ hv => hv) rfl

/-- A piece leaves the unit of indentation. -/
theorem unit_put (w : Writer) (p : Piece) : (w.put p).unit = w.unit := by
  cases p with
  | text s => exact unit_putText w s
  | usage s => exact unit_beginLine w
  | binding s => exact unit_beginLine w
  | indent => rfl
  | unindent => rfl
  | freshLine =>
    simp only [put]
    split
    · rfl
    · exact unit_putText w "\n"

/-- Pieces leave the unit of indentation. -/
theorem unit_write (w : Writer) (ps : List Piece) : (w.write ps).unit = w.unit := by
  induction ps generalizing w with
  | nil => rfl
  | cons p ps ih => rw [write_cons, ih, unit_put]

end Writer

end ModuleAssembly
