import ModuleAssembly.Proofs.Stream.Consistency
import ModuleAssembly.Proofs.Types.Atoms

/-!
# Emissions that can be put one after the other

Whatever is written for a declaration, a code block or an import statement leaves the level of
indentation as it finds it (`Member.keepsLevel_emission`), because levels change only around a part
that keeps them. What ends in a line break also leaves a writer at the start of a line
(`Emission.EndsLine`). Emissions that do both are sections (`Emission.IsSection`): the text of
several with an empty line between them is that of each written by a new writer, joined by line
breaks (`Emission.rendered_write_separated`).
-/

namespace ModuleAssembly

/-- Whether a piece leaves the level of indentation. -/
def Piece.isLevel : Piece → Bool
  | .indent | .unindent => false
  | .text _ | .usage _ | .binding _ | .freshLine => true

/-- Text and uses of symbols leave the level. -/
theorem Piece.isLevel_of_isInline {p : Piece} (h : p.isInline = true) : p.isLevel = true := by
  cases p with
  | text s => rfl
  | usage s => rfl
  | binding s => rfl
  | indent => cases h
  | unindent => cases h
  | freshLine => rfl

/-- A piece that leaves the level leaves that of every writer. -/
theorem Writer.level_put_of_isLevel (w : Writer) {p : Piece} (h : p.isLevel = true) :
    (w.put p).level = w.level := by
  cases p with
  | text s => exact level_putText w s
  | usage s => exact level_beginLine w
  | binding s => exact level_beginLine w
  | indent => cases h
  | unindent => cases h
  | freshLine =>
    simp only [put]
    split
    · rfl
    · exact level_putText w "\n"

namespace Emission

/-! ## The level of indentation -/

/-- Pieces that leave the level keep it. -/
theorem keepsLevel_ofList {ps : List Piece} (h : ∀ p ∈ ps, p.isLevel = true) :
    KeepsLevel (.ofList ps) := by
  intro _ w
  have hps : (Output.ofList ps).items = ps := rfl
  rw [hps]
  induction ps generalizing w with
  | nil => rfl
  | cons p ps ih =>
    have hrest := ih (fun q hq => h q (List.mem_cons_of_mem p hq)) rfl (w.put p) rfl
    rw [Writer.write_cons, hrest, w.level_put_of_isLevel (h p List.mem_cons_self)]

/-- A fault keeps the level, since it leaves nothing to keep it after. -/
theorem keepsLevel_stop (fault : Fault) : KeepsLevel (.stop fault) := by
  intro h
  cases h

/-- Text under a condition keeps the level. -/
theorem keepsLevel_textIf (condition : Bool) (s : String) : (textIf condition s).KeepsLevel := by
  unfold textIf
  split
  · exact keepsLevel_text s
  · exact keepsLevel_empty

/-- A text that is printed keeps the level. -/
theorem keepsLevel_printed (s : Except Fault String) : (printed s).KeepsLevel := by
  cases s with
  | ok s => exact keepsLevel_text s
  | error fault => exact keepsLevel_stop fault

/-- An emission one level deeper comes back to the level. -/
theorem KeepsLevel.indented {e : Emission} (h : e.KeepsLevel) :
    (Emission.indented e).KeepsLevel := by
  intro hnone w
  obtain ⟨hfront, -⟩ := Output.fault_append_eq_none.1 hnone
  obtain ⟨hin, hfault⟩ := Output.fault_append_eq_none.1 hfront
  have hinside := h hfault (w.put .indent)
  rw [Emission.indented, Output.items_append _ hfront, Output.items_append _ hin,
    Writer.write_append, Writer.write_append]
  -- One level is added before the emission and taken off after it.
  calc ((w.put .indent).write e.items).level - 1 = (w.put .indent).level - 1 := by rw [hinside]
    _ = w.level := Nat.add_sub_cancel w.level 1

/-- An emission that ends at the start of a line keeps the level if it does without. -/
theorem KeepsLevel.withFreshLine {e : Emission} (h : e.KeepsLevel) :
    (Emission.withFreshLine e).KeepsLevel :=
  h.append (keepsLevel_ofList (by simp [Piece.isLevel]))

/-- What several things are written as keeps the level if each does. -/
theorem keepsLevel_concat_map {α : Type} {f : α → Emission} (xs : List α)
    (h : ∀ x, (f x).KeepsLevel) : KeepsLevel (.concat (xs.map f)) := by
  refine keepsLevel_concat fun e he => ?_
  obtain ⟨x, -, rfl⟩ := List.mem_map.1 he
  exact h x

/-- What several things are written as, with a text between them, keeps the level if each does. -/
theorem keepsLevel_separated_map {α : Type} {f : α → Emission} (sep : String) (xs : List α)
    (h : ∀ x, (f x).KeepsLevel) : (separated sep (xs.map f)).KeepsLevel := by
  refine keepsLevel_separated sep fun e he => ?_
  obtain ⟨x, -, rfl⟩ := List.mem_map.1 he
  exact h x

end Emission

open Emission (keepsLevel_empty keepsLevel_text keepsLevel_textIf keepsLevel_printed
  keepsLevel_ofList keepsLevel_concat_map keepsLevel_separated_map)

/-! ## Types and code -/

namespace TypeExpr

/-- A type keeps the level. -/
theorem keepsLevel_emission (t : TypeExpr) : t.emission.KeepsLevel :=
  keepsLevel_ofList fun p hp => Piece.isLevel_of_isInline (t.isInline_pieces false p hp)

/-- Types with commas between them keep the level. -/
theorem keepsLevel_listPieces (ts : List TypeExpr) :
    Emission.KeepsLevel (.ofList (listPieces ts)) :=
  keepsLevel_ofList fun p hp => Piece.isLevel_of_isInline
    (isInline_listPieces (fun t _ => t.isInline_pieces false) p hp)

/-- A type after its colon keeps the level. -/
theorem keepsLevel_annotation (t : Option TypeExpr) : (TypeExpr.annotation t).KeepsLevel := by
  cases t with
  | none => exact keepsLevel_empty
  | some t => exact (keepsLevel_text ": ").append t.keepsLevel_emission

end TypeExpr

/-- A segment keeps the level. -/
theorem Segment.keepsLevel_emission (s : Segment) : s.emission.KeepsLevel := by
  cases s with
  | type t => exact t.keepsLevel_emission
  | text s => exact keepsLevel_text s
  | literal _ | string _ => exact keepsLevel_printed _

namespace CodeBlock

/-- A code block keeps the level. -/
theorem keepsLevel_emission (b : CodeBlock) : b.emission.KeepsLevel := by
  have hsegments := keepsLevel_concat_map b.segments.items Segment.keepsLevel_emission
  have hend : Emission.KeepsLevel ⟨[], b.segments.fault⟩ := fun _ _ => rfl
  exact hsegments.append hend

/-- A code block after its equals sign keeps the level. -/
theorem keepsLevel_assignment (b : Option CodeBlock) : (assignment b).KeepsLevel := by
  cases b with
  | none => exact keepsLevel_empty
  | some b => exact (keepsLevel_text " = ").append b.keepsLevel_emission

/-- A body keeps the level. -/
theorem keepsLevel_bodyEmission (b : CodeBlock) : b.bodyEmission.KeepsLevel :=
  ((keepsLevel_text _).append b.keepsLevel_emission.withFreshLine.indented).append
    (keepsLevel_text _)

end CodeBlock

/-! ## Declarations -/

/-- Documentation keeps the level. -/
theorem keepsLevel_docEmission (doc : Option String) : (docEmission doc).KeepsLevel := by
  cases doc with
  | none => exact keepsLevel_empty
  | some doc => exact keepsLevel_text _

/-- A parameter keeps the level. -/
theorem Parameter.keepsLevel_emission (p : Parameter) : p.emission.KeepsLevel := by
  have hdefault : Emission.KeepsLevel
      (p.default.elim .empty fun source => Emission.text (" = " ++ source)) := by
    cases p.default with
    | none => exact keepsLevel_empty
    | some source => exact keepsLevel_text _
  exact (((keepsLevel_text _).append (keepsLevel_textIf _ _)).append
    (TypeExpr.keepsLevel_annotation _)).append hdefault

namespace Function

/-- A signature keeps the level. -/
theorem keepsLevel_signature (f : Function) : f.signature.KeepsLevel := by
  have hparameters := keepsLevel_separated_map ", " f.parameters Parameter.keepsLevel_emission
  exact (((keepsLevel_text _).append hparameters).append (keepsLevel_text _)).append
    (TypeExpr.keepsLevel_annotation _)

/-- A body that may be missing keeps the level. -/
theorem keepsLevel_bodyOr (f : Function) (bodiless : String) :
    (f.bodyOr bodiless).KeepsLevel := by
  unfold bodyOr
  cases f.body with
  | none => exact keepsLevel_text bodiless
  | some b => exact b.keepsLevel_bodyEmission

/-- A method of an interface keeps the level. -/
theorem keepsLevel_interfaceEmission (f : Function) : f.interfaceEmission.KeepsLevel :=
  ((keepsLevel_docEmission _).append f.keepsLevel_signature).append (keepsLevel_text _)

/-- A method of a class keeps the level. -/
theorem keepsLevel_classEmission (f : Function) : f.classEmission.KeepsLevel :=
  (((keepsLevel_docEmission _).append (keepsLevel_textIf _ _)).append
    f.keepsLevel_signature).append (f.keepsLevel_bodyOr _)

/-- A function keeps the level. -/
theorem keepsLevel_emission (f : Function) : f.emission.KeepsLevel :=
  ((((keepsLevel_text _).append (keepsLevel_textIf _ _)).append (keepsLevel_text _)).append
    f.keepsLevel_signature).append (f.keepsLevel_bodyOr _)

end Function

namespace Property

/-- A property keeps the level. -/
theorem keepsLevel_memberEmission (p : Property) : p.memberEmission.KeepsLevel := by
  have hhead := (((keepsLevel_docEmission p.doc).append
    (keepsLevel_textIf p.isStatic "static ")).append
      (keepsLevel_textIf p.isReadonly "readonly ")).append (keepsLevel_text p.name)
  exact (((hhead.append (keepsLevel_textIf _ _)).append (TypeExpr.keepsLevel_annotation _)).append
    (CodeBlock.keepsLevel_assignment _)).append (keepsLevel_text _)

/-- A constant keeps the level. -/
theorem keepsLevel_constantEmission (p : Property) : p.constantEmission.KeepsLevel :=
  (((keepsLevel_text _).append (TypeExpr.keepsLevel_annotation _)).append
    (CodeBlock.keepsLevel_assignment _)).append (keepsLevel_text _)

end Property

/-- A constant of an enumeration keeps the level. -/
theorem Constant.keepsLevel_emission (c : Constant) : c.emission.KeepsLevel := by
  unfold emission
  refine (keepsLevel_docEmission c.doc).append ?_
  split
  · exact keepsLevel_text _
  · exact keepsLevel_text _
  · exact keepsLevel_printed _

/-- Types after a word keep the level. -/
theorem keepsLevel_heritage (word : String) (ts : List TypeExpr) :
    (heritage word ts).KeepsLevel := by
  unfold heritage
  split
  · exact keepsLevel_empty
  · exact (keepsLevel_text word).append (TypeExpr.keepsLevel_listPieces ts)

/-- A body in braces keeps the level if what stands in it does. -/
theorem keepsLevel_braced (isBlank : Bool) {body : Emission} (h : body.KeepsLevel) :
    (braced isBlank body).KeepsLevel := by
  unfold braced
  split
  · exact keepsLevel_text _
  · exact ((keepsLevel_text _).append h.indented).append (keepsLevel_text _)

/-- An interface keeps the level. -/
theorem Interface.keepsLevel_emission (d : Interface) : d.emission.KeepsLevel := by
  have hproperties := keepsLevel_concat_map d.properties Property.keepsLevel_memberEmission
  have hmethods := keepsLevel_concat_map d.methods Function.keepsLevel_interfaceEmission
  exact ((keepsLevel_text _).append (keepsLevel_heritage _ _)).append
    (keepsLevel_braced _ (hproperties.append hmethods))

/-- A class keeps the level. -/
theorem Class.keepsLevel_emission (d : Class) : d.emission.KeepsLevel := by
  have hproperties := keepsLevel_concat_map d.properties Property.keepsLevel_memberEmission
  have hmethods := keepsLevel_separated_map "\n" d.methods Function.keepsLevel_classEmission
  have hbody := (hproperties.append (keepsLevel_textIf
    (!d.properties.isEmpty && !d.methods.isEmpty) "\n")).append hmethods
  exact (((keepsLevel_text _).append (keepsLevel_heritage _ _)).append
    (keepsLevel_heritage _ _)).append (keepsLevel_braced _ hbody)

/-- An enumeration keeps the level. -/
theorem Enumeration.keepsLevel_emission (d : Enumeration) : d.emission.KeepsLevel := by
  have hconstants := keepsLevel_concat_map d.constants Constant.keepsLevel_emission
  exact ((keepsLevel_text _).append hconstants.indented).append (keepsLevel_text _)

/-- A type alias keeps the level. -/
theorem TypeAlias.keepsLevel_emission (d : TypeAlias) : d.emission.KeepsLevel :=
  ((keepsLevel_text _).append d.type.keepsLevel_emission).append (keepsLevel_text _)

/-- A declaration keeps the level. -/
theorem Declaration.keepsLevel_emission (docs : Docs) (d : Declaration) :
    (d.emission docs).KeepsLevel := by
  refine (keepsLevel_docEmission _).append ?_
  cases d with
  | interface d => exact d.keepsLevel_emission
  | classType d => exact d.keepsLevel_emission
  | enumeration d => exact d.keepsLevel_emission
  | function d => exact d.keepsLevel_emission
  | constant d => exact d.keepsLevel_constantEmission
  | typeAlias d => exact d.keepsLevel_emission

/-- A member of a file keeps the level. -/
theorem Member.keepsLevel_emission (docs : Docs) (m : Member) : (m.emission docs).KeepsLevel := by
  cases m with
  | declaration d => exact d.keepsLevel_emission docs
  | code b => exact b.keepsLevel_emission

/-! ## Sections -/

namespace Emission

/-- Whether an emission that is not stopped leaves every writer at the start of a line. -/
def EndsLine (e : Emission) : Prop :=
  e.fault = none → ∀ w : Writer, (w.write e.items).atLineStart = true

/-- A text that ends in a line break ends its line. -/
theorem endsLine_text {s : String} (h : ∃ t, s = t ++ "\n") : (text s).EndsLine := by
  obtain ⟨t, rfl⟩ := h
  intro _ w
  have hput : w.write (text (t ++ "\n")).items = (w.putText t).putText "\n" :=
    Writer.putText_append w t "\n"
  rw [hput, Writer.atLineStart_putText_newline]

/-- Going to the start of a line ends the line. -/
theorem endsLine_freshLine : EndsLine (.single .freshLine) := by
  intro _ w
  have hput : w.write (Output.single Piece.freshLine).items = w.put .freshLine := rfl
  rw [hput, Writer.put]
  split
  · next hline => exact hline
  · exact w.atLineStart_putText_newline

/-- Two emissions end their line if the second does. -/
theorem EndsLine.append (a : Emission) {b : Emission} (hb : b.EndsLine) : (a ++ b).EndsLine := by
  intro hnone w
  obtain ⟨hanone, hbnone⟩ := Output.fault_append_eq_none.1 hnone
  rw [Output.items_append b hanone, Writer.write_append]
  exact hb hbnone _

/-- Whether an emission that is not stopped leaves a writer that is at the start of a line at the
start of a line. -/
def KeepsLineStart (e : Emission) : Prop :=
  e.fault = none → ∀ w : Writer, w.atLineStart = true → (w.write e.items).atLineStart = true

/-- Nothing leaves the line where it is. -/
theorem keepsLineStart_empty : KeepsLineStart .empty :=
  fun _ _ h => h

/-- A fault leaves no line to end. -/
theorem keepsLineStart_stop (fault : Fault) : KeepsLineStart (.stop fault) := by
  intro h
  cases h

/-- What ends its line keeps the start of a line. -/
theorem EndsLine.keepsLineStart {e : Emission} (h : e.EndsLine) : e.KeepsLineStart :=
  fun hnone w _ => h hnone w

/-- Whole lines end at the start of a line. -/
theorem keepsLineStart_text {s : String} (h : Text.IsWholeLines s) :
    (text s).KeepsLineStart := by
  rcases h with rfl | hbreak
  · exact fun _ _ hw => hw
  · exact (endsLine_text hbreak).keepsLineStart

/-- Anything followed by whole lines that are not empty ends at the start of a line. -/
theorem keepsLineStart_append_text (e : Emission) (s : String) :
    KeepsLineStart (e ++ text (s ++ "\n")) :=
  ((endsLine_text ⟨s, rfl⟩).append e).keepsLineStart

/-- Two emissions end at the start of a line if each does. -/
theorem KeepsLineStart.append {a b : Emission} (ha : a.KeepsLineStart) (hb : b.KeepsLineStart) :
    KeepsLineStart (a ++ b) := by
  intro hnone w hw
  obtain ⟨hanone, hbnone⟩ := Output.fault_append_eq_none.1 hnone
  rw [Output.items_append b hanone, Writer.write_append]
  exact hb hbnone _ (ha hanone w hw)

/-- Several emissions end at the start of a line if each does. -/
theorem keepsLineStart_concat {es : List Emission} (h : ∀ e ∈ es, e.KeepsLineStart) :
    KeepsLineStart (.concat es) := by
  induction es with
  | nil => exact keepsLineStart_empty
  | cons e es ih =>
    rw [Output.concat_cons]
    exact (h e List.mem_cons_self).append (ih fun e' he' => h e' (List.mem_cons_of_mem e he'))

/-- An emission whose last line is ended ends at the start of a line. -/
theorem keepsLineStart_withFreshLine (e : Emission) : (withFreshLine e).KeepsLineStart :=
  (endsLine_freshLine.append e).keepsLineStart

/-- An emission that can be put between others: it keeps the level of indentation and the start of
the line. -/
structure IsSection (e : Emission) : Prop where
  /-- The level is as it was. -/
  keepsLevel : e.KeepsLevel
  /-- From the start of a line it comes to the start of a line. -/
  keepsLineStart : e.KeepsLineStart

/-- The text that a new writer makes of an emission, under some renames. -/
def alone (table : RenameTable) (unit : String) (e : Emission) : String :=
  (({ unit } : Writer).write e.items).rendered table

variable {table : RenameTable}

/-- A text alone is itself. -/
theorem alone_text (unit s : String) : (text s).alone table unit = s := by
  calc (({ unit } : Writer).putText s).rendered table = "" ++ s :=
        Writer.rendered_putText rfl s
    _ = s := String.empty_append

/-- At the start of a line of the outermost level an emission adds the text that it has alone. -/
theorem rendered_write_items {w : Writer} (hlevel : w.level = 0) (hline : w.atLineStart = true)
    (e : Emission) :
    (w.write e.items).rendered table = w.rendered table ++ e.alone table w.unit :=
  Writer.rendered_write hlevel hline e.items

/-- A section alone has whole lines. -/
theorem IsSection.isWholeLines_alone {e : Emission} (h : e.IsSection) (hfault : e.fault = none)
    (unit : String) : Text.IsWholeLines (e.alone table unit) :=
  ((Writer.Consistent.new unit).write e.items).isWholeLines (h.keepsLineStart hfault _ rfl) table

/-- With a text between them, the first of several emissions comes before the text and the
others. -/
theorem separated_cons_cons (sep : String) (e e' : Emission) (es : List Emission) :
    separated sep (e :: e' :: es) = e ++ (text sep ++ separated sep (e' :: es)) := by
  rw [separated, separated, List.map_cons, Output.concat_cons, Output.append_assoc]

/-- Several emissions with a text between them were not stopped, so none of them was. -/
theorem fault_of_mem_separated {sep : String} {es : List Emission}
    (h : (separated sep es).fault = none) : ∀ e ∈ es, e.fault = none := by
  match es with
  | [] => simp
  | [e] =>
    obtain ⟨hfault, -⟩ := Output.fault_append_eq_none.1 h
    simpa using hfault
  | e :: e' :: es =>
    rw [separated_cons_cons] at h
    obtain ⟨hfault, hrest⟩ := Output.fault_append_eq_none.1 h
    obtain ⟨-, hothers⟩ := Output.fault_append_eq_none.1 hrest
    exact List.forall_mem_cons.2 ⟨hfault, fault_of_mem_separated hothers⟩

/-- After a section and an empty line an emission adds the text that it has alone. -/
theorem IsSection.rendered_write_append {e : Emission} (h : e.IsSection) (hfault : e.fault = none)
    (e' : Emission) {w : Writer} (hlevel : w.level = 0) (hline : w.atLineStart = true) :
    (w.write (e ++ (text "\n" ++ e')).items).rendered table =
      w.rendered table ++ (e.alone table w.unit ++ "\n" ++ e'.alone table w.unit) := by
  -- After the section and the line break the writer is again where a section may start.
  generalize hv : (w.write e.items).putText "\n" = v
  have hunit : v.unit = w.unit := by
    rw [← hv, Writer.unit_putText, Writer.unit_write]
  have hvlevel : v.level = 0 := by
    rw [← hv, Writer.level_putText, h.keepsLevel hfault, hlevel]
  have hvline : v.atLineStart = true := by rw [← hv, Writer.atLineStart_putText_newline]
  have hvtext : v.rendered table = w.rendered table ++ e.alone table w.unit ++ "\n" := by
    rw [← hv, ← rendered_write_items hlevel hline]
    exact Writer.rendered_append (w.write e.items) "\n"
  have hwrite : w.write (e ++ (text "\n" ++ e')).items = v.write e'.items := by
    rw [Output.items_append _ hfault, Output.items_append _ rfl, Writer.write_append,
      Writer.write_append, ← hv]
    rfl
  rw [hwrite, rendered_write_items hvlevel hvline, hvtext, hunit]
  simp only [String.append_assoc]

/-- Sections with an empty line between them add their texts, joined by line breaks, at the start of
a line of the outermost level. -/
theorem rendered_write_separated {es : List Emission} (h : ∀ e ∈ es, e.IsSection)
    (hfault : (separated "\n" es).fault = none) {w : Writer} (hlevel : w.level = 0)
    (hline : w.atLineStart = true) :
    (w.write (separated "\n" es).items).rendered table =
      w.rendered table ++ String.intercalate "\n" (es.map (alone table w.unit)) := by
  match es with
  | [] => exact (String.append_empty).symm
  | [e] =>
    have hone : separated "\n" [e] = e := Output.append_empty e
    rw [hone, rendered_write_items hlevel hline, List.map_singleton, String.intercalate_singleton]
  | e :: e' :: es =>
    have he := h e List.mem_cons_self
    have hes : ∀ d ∈ e' :: es, d.IsSection := fun d hd => h d (List.mem_cons_of_mem e hd)
    rw [separated_cons_cons] at hfault ⊢
    obtain ⟨hefault, hrest⟩ := Output.fault_append_eq_none.1 hfault
    obtain ⟨-, hesfault⟩ := Output.fault_append_eq_none.1 hrest
    have htail : (separated "\n" (e' :: es)).alone table w.unit =
        String.intercalate "\n" ((e' :: es).map (alone table w.unit)) :=
      (rendered_write_separated hes hesfault (w := { unit := w.unit }) rfl rfl).trans
        String.empty_append
    have hjoin : String.intercalate "\n" ((e :: e' :: es).map (alone table w.unit)) =
        e.alone table w.unit ++ "\n" ++
          String.intercalate "\n" ((e' :: es).map (alone table w.unit)) :=
      String.intercalate_cons_cons
    rw [he.rendered_write_append hefault _ hlevel hline, htail, hjoin]

end Emission

end ModuleAssembly
