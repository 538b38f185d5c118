import ModuleAssembly.Proofs.Assembly.Sections
import ModuleAssembly.Proofs.Stream.Indentation
import ModuleAssembly.Proofs.Text.Comments

/-!
# Comments of files

Documentation and the header text of a file stand in comments, and nothing in them ends the comment
(`comments_enclose_text`). The documentation is written at any level: its lines are indented, but
the indentation stands after a line break, where no star is in front of it
(`Text.keepsOpen_laidOut`).
-/

namespace ModuleAssembly

open Emission (text)

namespace Text

/-- Text that closes no comment closes none when it is indented, if the indentation has no star. -/
theorem keepsOpen_laidOut {indentation : List Char} (hindentation : '*' ∉ indentation)
    (atStart : Bool) {cs : List Char} (h : KeepsOpen cs) :
    KeepsOpen (laidOut indentation atStart cs) := by
  induction cs generalizing atStart with
  | nil => exact h
  | cons c cs ih =>
    obtain ⟨hseam, hrest⟩ := keepsOpen_cons_iff.1 h
    by_cases hc : c = '\n'
    · rw [hc, laidOut_newline]
      exact keepsOpen_cons_iff.2 ⟨.inl (by decide), ih true hrest⟩
    · -- What comes after the character is on its line, so it is not indented.
      have hline : KeepsOpen (c :: laidOut indentation false cs) :=
        keepsOpen_cons_iff.2 ⟨by rwa [head?_laidOut_false], ih false hrest⟩
      rw [laidOut_cons hc]
      refine hline.append_of_notMem ?_
      cases atStart with
      | true => exact hindentation
      | false => exact List.not_mem_nil

/-- A block comment on lines of its own: it opens after the indentation, and what closes it is at
the end of its last line. -/
def IsBlockComment (indentation s : String) : Prop :=
  (∃ inside, s = indentation ++ "/**" ++ inside ++ "*/\n") ∧
    ∀ before after, s = before ++ "*/" ++ after → after = "\n"

/-- Where text that keeps a comment open has a slash after it, the comment is closed by this slash
if by any. -/
theorem eq_newline_of_keepsOpen {cs before after : List Char} (h : KeepsOpen cs)
    (hclose : cs ++ ['/', '\n'] = before ++ ['*', '/'] ++ after) : after = ['\n'] := by
  -- The characters of the text are taken off the end one by one.
  rcases List.eq_nil_or_concat' after with rfl | ⟨front, last, rfl⟩
  · have hlast := congrArg List.getLast? hclose
    simp at hlast
  · have hfirst : (cs ++ ['/']) ++ ['\n'] = (before ++ ['*', '/'] ++ front) ++ [last] := by
      simpa using hclose
    obtain ⟨hrest, hlast⟩ := List.append_inj' hfirst rfl
    rcases List.eq_nil_or_concat' front with rfl | ⟨inside, slash, rfl⟩
    · exact hlast.symm
    · have hsecond : cs ++ ['/'] = (before ++ ['*', '/'] ++ inside) ++ [slash] := by
        simpa using hrest
      obtain ⟨hcs, -⟩ := List.append_inj' hsecond rfl
      exact absurd ⟨before, inside, hcs.symm⟩ h

/-- The comment of a documentation text is laid out as a block comment at the start of a line. -/
theorem isBlockComment_laidOut {indentation doc : String} (hindentation : '*' ∉ indentation.toList)
    (hdoc : doc ≠ "") : IsBlockComment indentation
      (String.ofList (laidOut indentation.toList true (docComment doc).toList)) := by
  obtain ⟨inside, hcomment, hopen⟩ := exists_docComment_eq hdoc
  -- The slash that closes the comment comes after a star, so it does not start a line.
  have hend : laidOut indentation.toList true (docComment doc).toList =
      laidOut indentation.toList true (['/', '*', '*'] ++ inside ++ ['*']) ++ ['/', '\n'] := by
    have hsplit : (docComment doc).toList =
        (['/', '*', '*'] ++ inside ++ ['*']) ++ ['/', '\n'] := by
      rw [hcomment]
      simp
    rw [hsplit, laidOut_append, startsLine_append]
    rfl
  constructor
  · have hopening : ∀ cs, laidOut indentation.toList true (['/', '*', '*'] ++ cs) =
        indentation.toList ++ ['/', '*', '*'] ++ laidOut indentation.toList false cs := by
      simp [laidOut]
    obtain ⟨margin, hstar⟩ : ∃ margin,
        laidOut indentation.toList (startsLine false inside) ['*'] = margin ++ ['*'] :=
      ⟨_, laidOut_cons (by decide) _ []⟩
    refine ⟨String.ofList (laidOut indentation.toList false inside ++ margin),
      String.toList_injective ?_⟩
    rw [hend, List.append_assoc, hopening, laidOut_append, hstar]
    simp
  · intro before after hsplit
    have hclose : laidOut indentation.toList true (['/', '*', '*'] ++ inside ++ ['*']) ++
        ['/', '\n'] = before.toList ++ ['*', '/'] ++ after.toList := by
      simpa [hend] using congrArg String.toList hsplit
    have hafter := eq_newline_of_keepsOpen (keepsOpen_laidOut hindentation true hopen) hclose
    exact String.toList_injective hafter

end Text

/-- Text of spaces and tabs has no star, however often it is repeated. -/
theorem Writer.star_notMem_indentation {w : Writer}
    (h : ∀ c ∈ w.unit.toList, c = ' ' ∨ c = '\t') : '*' ∉ w.indentation.toList := by
  intro hstar
  rcases h '*' (mem_unit_of_mem_indentation hstar) with hspace | htab
  · cases hspace
  · cases htab

namespace FileModel

/-- A file without its header text. -/
def withoutHeader (f : FileModel) : FileModel :=
  { f with comment := none }

/-- A file without its header text has sections exactly if it has imports or members. -/
theorem sections_withoutHeader_eq_nil_iff {f : FileModel} {base : List String}
    {imports : List Import} {docs : Docs} :
    f.withoutHeader.sections base imports docs = [] ↔
      (imports.isEmpty && f.members.isEmpty) = true := by
  have hmembers : f.withoutHeader.emissionOrder = [] ↔ f.members = [] := by
    constructor
    · intro hnone
      refine List.eq_nil_iff_forall_not_mem.2 fun m hm => ?_
      have horder : m ∈ f.withoutHeader.emissionOrder := mem_emissionOrder_of_mem hm
      rw [hnone] at horder
      cases horder
    · intro hnone
      simp [emissionOrder, declarations, codeBlocks, withoutHeader, hnone]
  rw [sections, Bool.and_eq_true, List.isEmpty_iff (l := f.members), ← hmembers]
  simp [withoutHeader]

/-- A file with a header text is written as the comment of this text. Where the file has imports or
members, an empty line comes after the comment, and then what is written for these. -/
theorem alone_emission_of_comment {f : FileModel} {comment : String} (h : f.comment = some comment)
    (hcomment : comment ≠ "") (base : List String) (imports : List Import) (docs : Docs)
    (table : RenameTable) (unit : String) :
    (f.emission base imports docs).alone table unit =
      Text.headerComment comment ++ if imports.isEmpty && f.members.isEmpty then "" else
        "\n" ++ (f.withoutHeader.emission base imports docs).alone table unit := by
  have hsections : f.sections base imports docs =
      text (Text.headerComment comment) :: f.withoutHeader.sections base imports docs := by
    simp [sections, withoutHeader, h, Option.filter, hcomment]
    rfl
  have hheader : (text (Text.headerComment comment)).IsSection :=
    ⟨Emission.keepsLevel_text _,
      Emission.keepsLineStart_text (Text.isWholeLines_headerComment comment)⟩
  rw [emission, emission, hsections]
  cases hothers : f.withoutHeader.sections base imports docs with
  | nil =>
    have halone : Emission.separated "\n" [text (Text.headerComment comment)] =
        text (Text.headerComment comment) := Output.append_empty _
    rw [halone, Emission.alone_text, if_pos (sections_withoutHeader_eq_nil_iff.1 hothers),
      String.append_empty]
  | cons e others =>
    have hsome : ¬(imports.isEmpty && f.members.isEmpty) = true := fun hnone => by
      rw [sections_withoutHeader_eq_nil_iff.2 hnone] at hothers
      cases hothers
    have hnew : ({ unit } : Writer).rendered table = "" := rfl
    rw [if_neg hsome, Emission.separated_cons_cons, Emission.alone,
      hheader.rendered_write_append rfl _ rfl rfl, Emission.alone_text, hnew, String.empty_append,
      String.append_assoc]

end FileModel
/-- No text ends the comment it stands in. What is written for documentation at the start of a line,
at any level, opens a block comment after the indentation and closes it at the end of its last line,
and nowhere else. What is written for a header text are its rows, each of them a line comment on a
line of its own; what comes after them is an empty line and what is written for the imports and the
members of the file, if there are any, and nothing else. -/
theorem comments_enclose_text :
    (∀ (table : RenameTable) (w : Writer) (doc : String), doc ≠ "" → w.atLineStart = true →
      (∀ c ∈ w.unit.toList, c = ' ' ∨ c = '\t') → ∃ added,
        (w.write (docEmission (some doc)).items).rendered table = w.rendered table ++ added ∧
          Text.IsBlockComment w.indentation added) ∧
    ∀ (table : RenameTable) (unit : String) (f : FileModel) (comment : String)
      (base : List String) (imports : List Import) (docs : Docs),
      f.comment = some comment → comment ≠ "" →
        (({ unit } : Writer).write (f.emission base imports docs).items).rendered table =
          String.join ((Text.headerRows comment).map (· ++ "\n")) ++
            (if imports.isEmpty && f.members.isEmpty then "" else "\n" ++
              (({ unit } : Writer).write
                (f.withoutHeader.emission base imports docs).items).rendered table) ∧
        Text.headerRows comment ≠ [] ∧
        ∀ row ∈ Text.headerRows comment, Text.IsLineComment row := by
  refine ⟨fun table w doc hdoc hline hunit => ?_,
    fun table unit f comment base imports docs h hcomment => ?_⟩
  · refine ⟨_, w.rendered_putText_eq (Text.docComment doc), ?_⟩
    rw [hline]
    exact Text.isBlockComment_laidOut (Writer.star_notMem_indentation hunit) hdoc
  · refine ⟨?_, Text.headerRows_ne_nil hcomment, fun row hrow => Text.isLineComment_headerRows hrow⟩
    rw [← Text.headerComment_eq_join]
    exact FileModel.alone_emission_of_comment h hcomment base imports docs table unit

/-- Documentation with marks that close a comment, where they meet line ends as well, one level deep
in a file, and a file with a header text of two lines and a declaration. -/
theorem comments_enclose_text_of_marks :
    let doc := "*/ **/\r/ *\n/"
    let w : Writer := { unit := "\t", level := 1 }
    let f : FileModel :=
      { path := "a.ts"
        comment := some "first\rlet a;"
        members := [.declaration (.typeAlias { name := "Id", type := .named "string" })] }
    Text.docComment doc = "/**\n * * / ** /\n * / *\n * /\n */\n" ∧
      (∃ added, (w.write (docEmission (some doc)).items).rendered ⟨[]⟩ = w.rendered ⟨[]⟩ ++ added ∧
        Text.IsBlockComment w.indentation added) ∧
      Text.headerRows "first\rlet a;" = ["// first", "// let a;"] ∧
      (({} : Writer).write (f.emission [] [] []).items).rendered ⟨[]⟩ =
        "// first\n// let a;\n" ++ ("\n" ++ "export type Id = string;\n") ∧
      ∀ row ∈ ["// first", "// let a;"], Text.IsLineComment row := by
  intro doc w f
  have hunit : ∀ c ∈ w.unit.toList, c = ' ' ∨ c = '\t' := by simp [w]
  have hrows : Text.headerRows "first\rlet a;" = ["// first", "// let a;"] := by
    decide +kernel
  obtain ⟨hwritten, -, hcomments⟩ :=
    comments_enclose_text.2 ⟨[]⟩ "  " f "first\rlet a;" [] [] [] rfl (by decide)
  have hmembers : (({} : Writer).write (f.withoutHeader.emission [] [] []).items).rendered ⟨[]⟩ =
      "export type Id = string;\n" := by decide +kernel
  rw [hrows] at hwritten hcomments
  refine ⟨by decide +kernel, ?_, hrows, ?_, hcomments⟩
  · exact comments_enclose_text.1 ⟨[]⟩ w doc (by decide) rfl hunit
  · rw [hwritten, hmembers]
    rfl

end ModuleAssembly
