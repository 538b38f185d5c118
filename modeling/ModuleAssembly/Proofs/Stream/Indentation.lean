import ModuleAssembly.Proofs.Stream.Rendering

/-!
# Indented text

A writer puts a text character by character. What this adds to the rendered text is the text with
the indentation in front of the first character of each line (`Writer.rendered_putText_eq`): empty
lines, and a line that has begun before, are not indented. `Text.laidOut` says so of characters
alone, and may be computed of a text in two parts (`Text.laidOut_append`).
-/

namespace ModuleAssembly

namespace Text

variable {indentation : List Char}

/-- A text with the indentation in front of the first character of each line. Whether its first line
starts with it is given. -/
def laidOut (indentation : List Char) : Bool → List Char → List Char
  | _, [] => []
  | atStart, c :: cs =>
    if c = '\n' then '\n' :: laidOut indentation true cs
    else (if atStart then indentation else []) ++ c :: laidOut indentation false cs

/-- Whether a line starts after a text. -/
def startsLine : Bool → List Char → Bool
  | atStart, [] => atStart
  | _, c :: cs => startsLine (c == '\n') cs

/-- After a line break the text is laid out from the start of a line. -/
theorem laidOut_newline (atStart : Bool) (cs : List Char) :
    laidOut indentation atStart ('\n' :: cs) = '\n' :: laidOut indentation true cs := by
  rw [laidOut, if_pos rfl]

/-- Any other character comes after the indentation if it is the first of a line. -/
theorem laidOut_cons {c : Char} (hc : c ≠ '\n') (atStart : Bool) (cs : List Char) :
    laidOut indentation atStart (c :: cs) =
      (if atStart then indentation else []) ++ c :: laidOut indentation false cs := by
  rw [laidOut, if_neg hc]

/-- A text in two parts is laid out part by part. -/
theorem laidOut_append (atStart : Bool) (cs ds : List Char) :
    laidOut indentation atStart (cs ++ ds) =
      laidOut indentation atStart cs ++ laidOut indentation (startsLine atStart cs) ds := by
  induction cs generalizing atStart with
  | nil => rfl
  | cons c cs ih =>
    by_cases hc : c = '\n'
    · subst hc
      rw [List.cons_append, laidOut_newline, laidOut_newline, ih]
      rfl
    · have hstart : startsLine atStart (c :: cs) = startsLine false cs := by
        rw [startsLine, beq_eq_false_iff_ne.2 hc]
      rw [List.cons_append, laidOut_cons hc, laidOut_cons hc, ih, hstart, List.append_assoc,
        List.cons_append]

/-- Whether a line starts after two texts is decided by the second, unless it is empty. -/
theorem startsLine_append (atStart : Bool) (cs ds : List Char) :
    startsLine atStart (cs ++ ds) = startsLine (startsLine atStart cs) ds := by
  induction cs generalizing atStart with
  | nil => rfl
  | cons c cs ih => exact ih (c == '\n')

/-- Text on a line that has begun comes first as it is. -/
theorem head?_laidOut_false (cs : List Char) : (laidOut indentation false cs).head? = cs.head? := by
  cases cs with
  | nil => rfl
  | cons c cs =>
    by_cases hc : c = '\n'
    · rw [hc, laidOut_newline]
      rfl
    · rw [laidOut_cons hc]
      rfl

/-- On a line that has begun, text without a line break is not indented. -/
theorem laidOut_false {cs : List Char} (h : '\n' ∉ cs) : laidOut indentation false cs = cs := by
  induction cs with
  | nil => rfl
  | cons c cs ih =>
    have hc : c ≠ '\n' := ne_of_mem_of_not_mem List.mem_cons_self h
    rw [laidOut_cons hc, ih fun hmem => h (List.mem_cons_of_mem c hmem)]
    rfl

/-- Text without a line break has the indentation in front of it at the start of a line. -/
theorem laidOut_of_notMem {cs : List Char} (hcs : cs ≠ []) (h : '\n' ∉ cs) (atStart : Bool) :
    laidOut indentation atStart cs = (if atStart then indentation else []) ++ cs := by
  cases cs with
  | nil => exact absurd rfl hcs
  | cons c cs =>
    have hc : c ≠ '\n' := ne_of_mem_of_not_mem List.mem_cons_self h
    rw [laidOut_cons hc, laidOut_false fun hmem => h (List.mem_cons_of_mem c hmem)]

end Text

namespace Writer

variable {table : RenameTable}

/-- At the outermost level there is no indentation. -/
theorem indentation_eq_empty {w : Writer} (h : w.level = 0) : w.indentation = "" := by
  rw [indentation, h]
  rfl

/-- The indentation has no other characters than its unit. -/
theorem mem_unit_of_mem_indentation {w : Writer} {c : Char} (h : c ∈ w.indentation.toList) :
    c ∈ w.unit.toList := by
  rw [indentation, String.toList_join, List.mem_flatMap] at h
  obtain ⟨s, hs, hc⟩ := h
  rwa [List.eq_of_mem_replicate hs] at hc

/-- Text that is added leaves the indentation. -/
theorem indentation_append (w : Writer) (s : String) :
    (w.append s).indentation = w.indentation := by
  rw [indentation, level_append, unit_append]
  rfl

/-- A line begins with the indentation, unless it has begun. -/
theorem rendered_beginLine (w : Writer) : w.beginLine.rendered table =
    w.rendered table ++ String.ofList (if w.atLineStart then w.indentation.toList else []) := by
  unfold beginLine
  split
  · next hline =>
    have hbegun : ({ w with atLineStart := false } : Writer).rendered table = w.rendered table :=
      rendered_congr rfl
    dsimp only
    split
    · next hlevel =>
      rw [hbegun, indentation_eq_empty hlevel, String.ofList_toList, String.append_empty]
    · rw [rendered_append, hbegun, String.ofList_toList]
      rfl
  · exact String.append_empty.symm

/-- What a character adds is the character as it is laid out. -/
theorem rendered_putChar (w : Writer) (c : Char) : (w.putChar c).rendered table =
    w.rendered table ++
      String.ofList (Text.laidOut w.indentation.toList w.atLineStart [c]) := by
  unfold putChar
  by_cases hc : c = '\n'
  · have hbreak : ({ w.append "\n" with atLineStart := true } : Writer).rendered table =
        w.rendered table ++ "\n" := rendered_append w "\n"
    rw [if_pos hc, hc, hbreak, Text.laidOut_newline]
    rfl
  · rw [if_neg hc, rendered_append, rendered_beginLine, Text.laidOut_cons hc, String.ofList_append,
      String.append_assoc]
    rfl

/-- A line starts after a line break, and after no other character. -/
theorem atLineStart_putChar (w : Writer) (c : Char) : (w.putChar c).atLineStart = (c == '\n') := by
  unfold putChar
  by_cases hc : c = '\n'
  · rw [if_pos hc, hc]
    rfl
  · rw [if_neg hc, atLineStart_append, atLineStart_beginLine, beq_eq_false_iff_ne.2 hc]

/-- A character leaves the indentation. -/
theorem indentation_putChar (w : Writer) (c : Char) : (w.putChar c).indentation = w.indentation :=
  putChar_preserves (P := fun v => v.indentation = w.indentation)
    (fun v s hv => (indentation_append v s).trans hv) (fun _ _ hv => hv) rfl c

/-- What a text adds is the text as it is laid out. -/
theorem rendered_putText_eq (w : Writer) (s : String) : (w.putText s).rendered table =
    w.rendered table ++
      String.ofList (Text.laidOut w.indentation.toList w.atLineStart s.toList) := by
  unfold putText
  induction s.toList generalizing w with
  | nil => exact String.append_empty.symm
  | cons c cs ih =>
    -- After the character the line starts or does not, as it does where the rest is laid out.
    have hsplit : Text.laidOut w.indentation.toList w.atLineStart (c :: cs) =
        Text.laidOut w.indentation.toList w.atLineStart [c] ++
          Text.laidOut w.indentation.toList (c == '\n') cs :=
      Text.laidOut_append w.atLineStart [c] cs
    rw [List.foldl_cons, ih, rendered_putChar, atLineStart_putChar, indentation_putChar,
      String.append_assoc, ← String.ofList_append, hsplit]

/-- A text without a line break is added as it is, after the indentation if a line starts with
it. -/
theorem rendered_putText_of_notMem (w : Writer) {s : String} (hs : s ≠ "") (h : '\n' ∉ s.toList) :
    (w.putText s).rendered table = w.rendered table ++
      String.ofList (if w.atLineStart then w.indentation.toList else []) ++ s := by
  have hchars : s.toList ≠ [] := by simpa using hs
  rw [rendered_putText_eq, Text.laidOut_of_notMem hchars h, String.ofList_append,
    String.ofList_toList, String.append_assoc]

end Writer

end ModuleAssembly
