import ModuleAssembly.Proofs.Assembly.Stability

/-!
# What a declaration begins with

A writer only adds to the text (`Writer.exists_rendered_write`), so an emission that begins with
some text leads to it whatever comes after (`Emission.BeginsWith`). The text of a declaration is its
documentation and then what its emission begins with (`Declaration.HasHead`): for an exported
interface or enumeration the word `export`, its kind and its name. A file exports the name of such a
declaration (`FileModel.Exports`).
-/

namespace ModuleAssembly

open Emission (text)

/-- What is written comes after what has been written. -/
theorem Writer.exists_rendered_write (table : RenameTable) (w : Writer) (ps : List Piece) :
    ∃ rest, (w.write ps).rendered table = w.rendered table ++ rest := by
  -- A writer on the same line that has written nothing is behind by all of the text.
  have hbare : ({ w with latest := [] } : Writer).rendered table = "" := rfl
  have hahead : Ahead table (w.rendered table) w { w with latest := [] } :=
    ⟨rfl, rfl, rfl, by rw [hbare, String.append_empty]⟩
  exact ⟨_, (hahead.write ps).rendered_eq⟩

namespace Emission

/-- Wherever an emission is written at the outermost level, a text comes first. -/
def BeginsWith (e : Emission) (head : String) : Prop :=
  ∀ (table : RenameTable) (w : Writer), w.level = 0 →
    ∃ rest, (w.write e.items).rendered table = w.rendered table ++ head ++ rest

/-- A text begins with its first part. -/
theorem beginsWith_text (head rest : String) : (text (head ++ rest)).BeginsWith head := by
  intro table w hlevel
  refine ⟨rest, ?_⟩
  calc (w.putText (head ++ rest)).rendered table = w.rendered table ++ (head ++ rest) :=
        Writer.rendered_putText hlevel _
    _ = w.rendered table ++ head ++ rest := (String.append_assoc ..).symm

/-- What comes after an emission does not change what it begins with. -/
theorem BeginsWith.append {e : Emission} {head : String} (h : e.BeginsWith head) (e' : Emission) :
    (e ++ e').BeginsWith head := by
  intro table w hlevel
  obtain ⟨rest, hrest⟩ := h table w hlevel
  cases hfault : e.fault with
  | none =>
    obtain ⟨more, hmore⟩ := Writer.exists_rendered_write table (w.write e.items) e'.items
    refine ⟨rest ++ more, ?_⟩
    rw [Output.items_append e' hfault, Writer.write_append, hmore, hrest, String.append_assoc]
  | some fault =>
    -- After a fault there is nothing more.
    have hstop : e ++ e' = e := by
      obtain ⟨items, _⟩ := e
      cases hfault
      rfl
    rw [hstop]
    exact ⟨rest, hrest⟩

/-- A text in front of an emission stands in front of what it begins with. -/
theorem BeginsWith.text_append {e : Emission} {head : String} (h : e.BeginsWith head) (s : String) :
    (text s ++ e).BeginsWith (s ++ head) := by
  intro table w hlevel
  obtain ⟨rest, hrest⟩ := h table (w.putText s) (by rw [Writer.level_putText, hlevel])
  refine ⟨rest, ?_⟩
  calc ((w.putText s).write e.items).rendered table
      = (w.putText s).rendered table ++ head ++ rest := hrest
    _ = w.rendered table ++ (s ++ head) ++ rest := by
        rw [Writer.rendered_putText hlevel]
        simp only [String.append_assoc]

/-- The text that a new writer makes of an emission begins with what it begins with. -/
theorem BeginsWith.exists_alone {e : Emission} {head : String} (h : e.BeginsWith head)
    (table : RenameTable) (unit : String) : ∃ rest, e.alone table unit = head ++ rest := by
  obtain ⟨rest, hrest⟩ := h table { unit } rfl
  have hnew : ({ unit } : Writer).rendered table = "" := rfl
  refine ⟨rest, ?_⟩
  rw [alone, hrest, hnew, String.empty_append]

end Emission

/-! ## Declarations -/

/-- Documentation as it is written. -/
def docText (doc : Option String) : String :=
  doc.elim "" Text.docComment

/-- In every file the text of a declaration is its documentation, then `head`, then the rest. -/
def Declaration.HasHead (d : Declaration) (head : String) : Prop :=
  ∀ config docs renames, ∃ rest,
    d.sectionText config docs renames = docText (d.docIn docs) ++ head ++ rest

/-- What a declaration is written as begins with its documentation. -/
theorem Declaration.hasHead_of_beginsWith {d : Declaration} {head : String}
    (h : d.bodyEmission.BeginsWith head) : d.HasHead head := by
  intro config docs renames
  have hdocumented : (d.emission docs).BeginsWith (docText (d.docIn docs) ++ head) := by
    unfold emission docEmission docText
    cases d.docIn docs with
    | none =>
      have hplain : "" ++ head = head := String.empty_append
      exact hplain ▸ h
    | some doc => exact h.text_append (Text.docComment doc)
  exact (hdocumented.append (.single .freshLine)).exists_alone ⟨renames⟩ config.indent

/-- The body of an interface or class starts with a brace. -/
theorem beginsWith_braced (isBlank : Bool) (body : Emission) :
    (braced isBlank body).BeginsWith " \x7b" := by
  cases isBlank with
  | true => exact Emission.beginsWith_text " \x7b" "\x7d\n"
  | false => exact ((Emission.beginsWith_text " \x7b" "\n").append _).append _

/-- An exported interface that extends nothing begins with its name. -/
theorem Interface.hasHead {d : Interface} (hbases : d.bases = []) (hexported : d.exported = true) :
    (Declaration.interface d).HasHead ("export interface " ++ d.name ++ " \x7b") := by
  refine Declaration.hasHead_of_beginsWith ?_
  have hemission : d.emission = text ("export interface " ++ d.name) ++
      braced (d.properties.isEmpty && d.methods.isEmpty)
        (.concat (d.properties.map Property.memberEmission) ++
          .concat (d.methods.map Function.interfaceEmission)) := by
    rw [emission, hbases, hexported]
    rfl
  rw [Declaration.bodyEmission, hemission]
  exact (beginsWith_braced _ _).text_append _

/-- An exported enumeration begins with its name. -/
theorem Enumeration.hasHead {d : Enumeration} (hconst : d.isConst = false)
    (hexported : d.exported = true) :
    (Declaration.enumeration d).HasHead ("export enum " ++ d.name ++ " \x7b") := by
  refine Declaration.hasHead_of_beginsWith ?_
  have hbrace : " \x7b\n" = " \x7b" ++ "\n" := rfl
  have hemission : d.emission = text ("export enum " ++ d.name ++ " \x7b" ++ "\n") ++
      Emission.indented (.concat (d.constants.map Constant.emission)) ++ text "\x7d\n" := by
    rw [emission, hconst, hexported, hbrace, ← String.append_assoc]
    rfl
  rw [Declaration.bodyEmission, hemission]
  exact ((Emission.beginsWith_text _ "\n").append _).append _

/-- A file exports the name of an interface or of an enumeration that is written with `export`. -/
def FileModel.Exports (f : FileModel) (name : String) : Prop :=
  ∃ d ∈ f.declarations, d.name = name ∧
    (d.HasHead ("export interface " ++ name ++ " \x7b") ∨
      d.HasHead ("export enum " ++ name ++ " \x7b"))

end ModuleAssembly
