import ModuleAssembly.Proofs.Separators
import ModuleAssembly.Proofs.Stream.Indentation
import ModuleAssembly.Proofs.Text.Cut

/-!
# Text written line by line

A text may also be written line by line: its lines one after the other, a line break in front of
each but the first, and nothing for an empty line (`Writer.putByLine`). Whatever the state of the
writer, this is what writing the characters comes to (`Writer.putText_eq_putByLine`), so it does not
matter how text is cut into pieces. What it adds to the rendered text are the lines with the
indentation in front of each that is not empty, but not of the first if its line has begun
(`Writer.rendered_putLines`).
-/

namespace ModuleAssembly

/-! ## Indented lines -/

namespace Text

/-- A line with the indentation in front of it, unless it is empty. -/
def indentLine (indentation line : String) : String :=
  if line = "" then "" else indentation ++ line

/-- Lines with the indentation in front of each that is not empty. Whether the first starts a line
is given. -/
def indentLines (indentation : String) (atStart : Bool) : List String → List String
  | [] => []
  | first :: others =>
    (if atStart then indentLine indentation first else first) ::
      others.map (indentLine indentation)

/-- Where there are lines, there are lines to write. -/
theorem indentLines_ne_nil (indentation : String) (atStart : Bool) {lines : List String}
    (h : lines ≠ []) : indentLines indentation atStart lines ≠ [] := by
  cases lines with
  | nil => exact absurd rfl h
  | cons first others => exact List.cons_ne_nil _ _

/-- An indented line has no character that neither the indentation nor the line has. -/
theorem notMem_indentLine {c : Char} {indentation line : String} (hin : c ∉ indentation.toList)
    (hline : c ∉ line.toList) : c ∉ (indentLine indentation line).toList := by
  unfold indentLine
  split
  · exact List.not_mem_nil
  · rw [String.toList_append, List.mem_append]
    exact fun h => h.elim hin hline

/-- So it is with indented lines. -/
theorem notMem_of_mem_indentLines {c : Char} {indentation : String} (hin : c ∉ indentation.toList)
    {lines : List String} (hlines : ∀ line ∈ lines, c ∉ line.toList) (atStart : Bool) :
    ∀ line ∈ indentLines indentation atStart lines, c ∉ line.toList := by
  cases lines with
  | nil => exact fun line hline => absurd hline List.not_mem_nil
  | cons first others =>
    obtain ⟨hfirst, hothers⟩ := List.forall_mem_cons.1 hlines
    refine List.forall_mem_cons.2 ⟨?_, fun line hline => ?_⟩
    · cases atStart with
      | true => exact notMem_indentLine hin hfirst
      | false => exact hfirst
    · obtain ⟨other, hother, rfl⟩ := List.mem_map.1 hline
      exact notMem_indentLine hin (hothers other hother)

/-- An empty line stays empty. -/
theorem getElem?_indentLines_empty {indentation : String} {atStart : Bool} {lines : List String}
    {i : Nat} (h : lines[i]? = some "") :
    (indentLines indentation atStart lines)[i]? = some "" := by
  cases lines with
  | nil => cases h
  | cons first others =>
    cases i with
    | zero =>
      obtain rfl : first = "" := Option.some.inj h
      cases atStart with
      | true => rfl
      | false => rfl
    | succ i =>
      have hother : others[i]? = some "" := h
      show (others.map (indentLine indentation))[i]? = some ""
      rw [List.getElem?_map, hother]
      rfl

end Text

namespace Writer

/-! ## Writing lines -/

/-- Writes a line, or nothing if it is empty. -/
def putLine (w : Writer) (line : String) : Writer :=
  if line = "" then w else w.beginLine.append line

/-- Writes a line break. -/
def putBreak (w : Writer) : Writer :=
  { w.append "\n" with atLineStart := true }

/-- Writes lines, with a line break in front of each but the first. -/
def putLines (w : Writer) : List String → Writer
  | [] => w
  | first :: others => others.foldl (fun v line => v.putBreak.putLine line) (w.putLine first)

/-- Writes a text line by line. -/
def putByLine (w : Writer) (s : String) : Writer :=
  w.putLines (Text.parts '\n' s)

/-- An empty line is not written. -/
@[simp] theorem putLine_empty (w : Writer) : w.putLine "" = w :=
  if_pos rfl

/-- Texts that are added one after the other are added as one. -/
theorem append_append (w : Writer) (s t : String) : (w.append s).append t = w.append (s ++ t) := by
  obtain ⟨latest, unit, level, atLineStart⟩ := w
  cases latest with
  | nil => rfl
  | cons m older =>
    cases m with
    | text u => simp only [append, String.append_assoc]
    | usage x => rfl
    | binding x => rfl

/-- A line that has begun is as it is. -/
theorem beginLine_of_begun {w : Writer} (h : w.atLineStart = false) : w.beginLine = w := by
  rw [beginLine, if_neg (by simp [h])]

/-- A line that has begun with a character goes on with the rest of it. -/
theorem putLine_putChar (w : Writer) {c : Char} (hc : c ≠ '\n') (cs : List Char) :
    (w.putChar c).putLine (String.ofList cs) = w.putLine (String.ofList (c :: cs)) := by
  have hline : w.putLine (String.ofList (c :: cs)) =
      w.beginLine.append (String.singleton c ++ String.ofList cs) := by
    rw [putLine, if_neg (by simp), String.ofList_cons]
  rw [hline, putChar, if_neg hc]
  by_cases hcs : cs = []
  · rw [hcs, String.ofList_nil, putLine_empty, String.append_empty]
  · have hbegun : (w.beginLine.append (String.singleton c)).atLineStart = false := by
      rw [atLineStart_append, atLineStart_beginLine]
    rw [putLine, if_neg (by simpa using hcs), beginLine_of_begun hbegun, append_append]

/-- Writing a text character by character is writing it line by line. -/
theorem putText_eq_putByLine (w : Writer) (s : String) : w.putText s = w.putByLine s := by
  unfold putText putByLine Text.parts
  induction s.toList generalizing w with
  | nil => rfl
  | cons c cs ih =>
    obtain ⟨first, others, hparts⟩ := Text.exists_partsAt_eq '\n' cs
    rw [List.foldl_cons, ih, hparts]
    by_cases hc : c = '\n'
    · -- The character ends an empty line, and the others come after it as they did.
      have hbreak : w.putChar c = w.putBreak := if_pos hc
      rw [hbreak, hc, Text.partsAt_mark, hparts]
      rfl
    · rw [Text.partsAt_cons hc hparts, List.map_cons, List.map_cons, putLines, putLines,
        putLine_putChar w hc]

/-! ## What lines add -/

variable {table : RenameTable}

/-- A line leaves the indentation. -/
theorem indentation_putLine (w : Writer) (line : String) :
    (w.putLine line).indentation = w.indentation := by
  unfold putLine
  split
  · rfl
  · rw [indentation_append, indentation, level_beginLine, unit_beginLine]
    rfl

/-- What a line adds is the line, after the indentation if it is not empty and starts a line. -/
theorem rendered_putLine (w : Writer) (line : String) :
    (w.putLine line).rendered table = w.rendered table ++
      if w.atLineStart then Text.indentLine w.indentation line else line := by
  unfold putLine Text.indentLine
  by_cases hline : line = ""
  · simp [hline]
  · rw [if_neg hline, if_neg hline, rendered_append, rendered_beginLine, String.append_assoc]
    cases w.atLineStart with
    | true => simp
    | false => simp

/-- What a line after a line break adds. -/
theorem rendered_putBreak_putLine (w : Writer) (line : String) :
    (w.putBreak.putLine line).rendered table =
      w.rendered table ++ ("\n" ++ Text.indentLine w.indentation line) := by
  have hbreak : w.putBreak.rendered table = w.rendered table ++ "\n" := rendered_append w "\n"
  have hin : w.putBreak.indentation = w.indentation := indentation_append w "\n"
  rw [rendered_putLine, hbreak, hin, String.append_assoc]
  rfl

/-- What lines after line breaks add. -/
theorem rendered_foldl_putLine (w : Writer) (lines : List String) :
    (lines.foldl (fun v line => v.putBreak.putLine line) w).rendered table =
      w.rendered table ++
        String.join ((lines.map (Text.indentLine w.indentation)).map ("\n" ++ ·)) := by
  induction lines generalizing w with
  | nil => simp
  | cons line lines ih =>
    have hin : (w.putBreak.putLine line).indentation = w.indentation := by
      rw [indentation_putLine]
      exact indentation_append w "\n"
    rw [List.foldl_cons, ih, hin, rendered_putBreak_putLine, List.map_cons, List.map_cons,
      String.join_cons, String.append_assoc]

/-- What lines add are the lines as they are indented, with line breaks between them. -/
theorem rendered_putLines (w : Writer) (lines : List String) :
    (w.putLines lines).rendered table = w.rendered table ++
      String.intercalate "\n" (Text.indentLines w.indentation w.atLineStart lines) := by
  cases lines with
  | nil => simp [putLines, Text.indentLines]
  | cons first others =>
    rw [putLines, rendered_foldl_putLine, indentation_putLine, rendered_putLine, Text.indentLines,
      Text.intercalate_cons_eq_join, String.append_assoc]

/-- Every writer writes a text line by line, and it does not matter whether the text is cut into
pieces first. What it adds to the rendered text are the lines of the text, each with the indentation
in front of it, but not an empty one, nor the first if its line has begun. These are the lines of
what is added, unless the unit of indentation has a line break in it. -/
theorem putByLine_cut (w : Writer) :
    (∀ s, w.putText s = w.putByLine s) ∧
    (∀ s t, (w.putByLine s).putByLine t = w.putByLine (s ++ t)) ∧
    ∀ table s,
      let lines := Text.parts '\n' s
      let added := Text.indentLines w.indentation w.atLineStart lines
      (w.putByLine s).rendered table = w.rendered table ++ String.intercalate "\n" added ∧
        (∀ i : Nat, lines[i]? = some "" → added[i]? = some "") ∧
        ('\n' ∉ w.unit.toList → Text.parts '\n' (String.intercalate "\n" added) = added) := by
  refine ⟨putText_eq_putByLine w, fun s t => ?_, fun table s =>
    ⟨rendered_putLines w _, fun i hi => Text.getElem?_indentLines_empty hi, fun hunit => ?_⟩⟩
  · rw [← putText_eq_putByLine, ← putText_eq_putByLine, ← putText_eq_putByLine, putText_append]
  · have hin : '\n' ∉ w.indentation.toList := fun h => hunit (mem_unit_of_mem_indentation h)
    have hne := Text.indentLines_ne_nil w.indentation w.atLineStart (Text.parts_ne_nil '\n' s)
    refine Text.parts_intercalate hne ?_
    exact Text.notMem_of_mem_indentLines hin (fun line hline => Text.not_mem_of_mem_parts hline)
      w.atLineStart

/-- A text on a line that has begun, with an empty line in it, one level deep. -/
theorem putByLine_cut_of_begun :
    let w : Writer := ({ unit := "\t" } : Writer).write [.indent, .usage ⟨"Item", "./item"⟩]
    '\n' ∉ w.unit.toList ∧ w.rendered {} = "\tItem" ∧
      (w.putByLine "[]\n").putByLine "\nb" = w.putByLine "[]\n\nb" ∧
      (w.putByLine "[]\n\nb").rendered {} = "\tItem" ++ "[]\n\n\tb" ∧
      Text.parts '\n' "[]\n\n\tb" = ["[]", "", "\tb"] := by
  intro w
  obtain ⟨-, hcut, hlines⟩ := putByLine_cut w
  obtain ⟨hrendered, -, hparts⟩ := hlines {} "[]\n\nb"
  have hunit : '\n' ∉ w.unit.toList := by decide
  exact ⟨hunit, by decide, hcut "[]\n" "\nb", hrendered, hparts hunit⟩

end Writer

end ModuleAssembly
