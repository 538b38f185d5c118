import ModuleAssembly.Proofs.Stream.Layout

/-!
# Declarations end their lines

Every declaration ends in text with a line break at its end (`Declaration.endsLine_emission`), so
it leaves a writer at the start of a line, whatever the writer was told before, and at the level of
indentation that it found. Together with what a writer knows of its tokens at all times
(`Writer.Consistent`) this is what one declaration may rely on after another.
-/

namespace ModuleAssembly

open Emission (endsLine_text)

/-- A body in braces ends its line. -/
theorem endsLine_braced (isBlank : Bool) (body : Emission) : (braced isBlank body).EndsLine := by
  unfold braced
  split
  · exact endsLine_text ⟨" \x7b\x7d", rfl⟩
  · exact (endsLine_text ⟨"\x7d", rfl⟩).append _

/-- The body of a function ends its line, and so does what stands for a missing one. -/
theorem Function.endsLine_bodyOr (f : Function) {bodiless : String}
    (h : ∃ t, bodiless = t ++ "\n") : (f.bodyOr bodiless).EndsLine := by
  unfold bodyOr
  cases f.body with
  | none => exact endsLine_text h
  | some b => exact (endsLine_text ⟨"\x7d", rfl⟩).append _

/-- A declaration ends its line. -/
theorem Declaration.endsLine_emission (docs : Docs) (d : Declaration) :
    (d.emission docs).EndsLine := by
  refine Emission.EndsLine.append _ ?_
  cases d with
  | interface d => exact (endsLine_braced _ _).append _
  | classType d => exact (endsLine_braced _ _).append _
  | enumeration d => exact (endsLine_text ⟨"\x7d", rfl⟩).append _
  | function d => exact (d.endsLine_bodyOr ⟨" \x7b\x7d", rfl⟩).append _
  | constant d => exact (endsLine_text ⟨";", rfl⟩).append _
  | typeAlias d => exact (endsLine_text ⟨";", rfl⟩).append _

/-! ## The states of a writer -/

namespace Writer

/-- What a writer may be asked: to write or do what a piece says, or to write a member of a file. -/
inductive Request where
  /-- A piece. -/
  | piece (p : Piece)
  /-- A member of a file; if a fault stops it, what comes before the fault. -/
  | member (docs : Docs) (m : Member)

/-- The pieces that a request comes to. -/
def Request.pieces : Request → List Piece
  | .piece p => [p]
  | .member docs m => (m.emission docs).items

/-- Does what is asked, in order. -/
def serve (w : Writer) (requests : List Request) : Writer :=
  requests.foldl (fun v request => v.write request.pieces) w

/-- Requests keep what a writer knows. -/
theorem Consistent.serve {w : Writer} (h : w.Consistent) (requests : List Request) :
    (w.serve requests).Consistent := by
  unfold Writer.serve
  induction requests generalizing w with
  | nil => exact h
  | cons request requests ih => exact ih (h.write request.pieces)

/-- After any requests a new writer knows its tokens: no two texts stand next to each other, and a
line starts exactly where nothing is written yet or the last token is a text that ends in a line
break. A declaration that is not stopped then leaves it at the start of a line, wherever the
declaration started, and at the level that it found. -/
theorem serve_consistent (unit : String) (requests : List Request) :
    let w := ({ unit } : Writer).serve requests
    w.Consistent ∧ ∀ (docs : Docs) (d : Declaration), (d.emission docs).fault = none →
      (w.write (d.emission docs).items).atLineStart = true ∧
        (w.write (d.emission docs).items).level = w.level :=
  ⟨(Consistent.new unit).serve requests, fun docs d hfault =>
    ⟨d.endsLine_emission docs hfault _, d.keepsLevel_emission docs hfault _⟩⟩

/-- A class with documentation, code over two lines and an initial value, after a constant that a
fault stopped in the middle of its line. -/
theorem serve_consistent_of_stopped :
    let item : Symbol := ⟨"Item", "./item"⟩
    let stopped : Declaration :=
      .constant { name := "first", initial := some ⟨"new %T", [.text "@x"]⟩ }
    let w := ({ unit := "\t" } : Writer).serve
      [.piece .indent, .member [] (.declaration stopped), .piece (.usage item)]
    let store : Declaration :=
      .classType
        { name := "Store"
          properties := [{ name := "size", initial := some ⟨"0", []⟩ }]
          methods := [{ name := "all", body := some ⟨"a;\n\nreturn [];", []⟩ }] }
    let docs : Docs := [("Store", "All items.\nIn order.")]
    (stopped.emission []).fault = some (.badReference "@x") ∧
      w.tokens = [.text "\texport const first = new ", .usage item] ∧ w.atLineStart = false ∧
      w.Consistent ∧ (store.emission docs).fault = none ∧
      (w.write (store.emission docs).items).atLineStart = true ∧
      (w.write (store.emission docs).items).level = 1 := by
  intro item stopped w store docs
  obtain ⟨hconsistent, hdeclaration⟩ := serve_consistent "\t"
    [.piece .indent, .member [] (.declaration stopped), .piece (.usage item)]
  have hfault : (store.emission docs).fault = none := by decide +kernel
  obtain ⟨hline, hlevel⟩ := hdeclaration docs store hfault
  have hone : w.level = 1 := by decide +kernel
  exact ⟨by decide +kernel, by decide +kernel, by decide +kernel, hconsistent, hfault, hline,
    hlevel.trans hone⟩

end Writer

end ModuleAssembly
