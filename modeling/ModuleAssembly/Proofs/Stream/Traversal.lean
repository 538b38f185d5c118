import ModuleAssembly.Assembly
import ModuleAssembly.Proofs.Code.Printed
import ModuleAssembly.Proofs.Stream.ImportBlock

/-!
# Collected and written symbols

The symbols of a file are walked twice: collected, to decide its imports, and written, where the
emission of a declaration has a place for each. The two walks agree (`Emission.Writes`). What is
written for a type, a code block or a declaration uses the symbols that are collected from it, in
the same order and up to the same fault, unless something in it cannot be printed, which stops it
there (`TypeExpr.marks_pieces`, `CodeBlock.writes_emission`, `Declaration.writes_emission`). The
bodies of the methods of interfaces are collected but not written (`Declaration.written`). The marks
of a file are then its bindings and these symbols, those of the declarations before those of the
code blocks (`FileModel.marks_tokens`).
-/

namespace ModuleAssembly

/-! ## Outputs that are stopped on the way -/

namespace Output

variable {α : Type}

/-- Two outputs were not stopped exactly if neither was. -/
theorem fault_append_eq_none {a b : Output α} :
    (a ++ b).fault = none ↔ a.fault = none ∧ b.fault = none := by
  obtain ⟨items, _ | fault⟩ := a
  · simp
  · simp

/-- The items of two outputs, if the first was not stopped. -/
theorem items_append {a : Output α} (b : Output α) (h : a.fault = none) :
    (a ++ b).items = a.items ++ b.items := by
  obtain ⟨items, _ | fault⟩ := a
  · rfl
  · cases h

/-- The items of two outputs begin with those of the first. -/
theorem prefix_items_append (a b : Output α) : a.items <+: (a ++ b).items := by
  obtain ⟨items, _ | fault⟩ := a
  · exact List.prefix_append items b.items
  · exact List.prefix_rfl

/-- An output is another one, unless it was stopped on the way. -/
def CutOf (a b : Output α) : Prop :=
  a = b ∨ a.fault ≠ none ∧ a.items <+: b.items

/-- Its items are among those of the other. -/
theorem CutOf.subset {a b : Output α} (h : CutOf a b) : a.items ⊆ b.items := by
  rcases h with rfl | ⟨-, hitems⟩
  · exact List.Subset.refl _
  · exact hitems.subset

/-- If it was not stopped, it is the other. -/
theorem CutOf.eq {a b : Output α} (h : CutOf a b) (hfault : a.fault = none) : a = b := by
  rcases h with heq | ⟨hstop, -⟩
  · exact heq
  · exact absurd hfault hstop

/-- Two outputs may be stopped one after the other. -/
theorem CutOf.append {a a' b b' : Output α} (h : CutOf a a') (h' : CutOf b b') :
    CutOf (a ++ b) (a' ++ b') := by
  rcases h with rfl | ⟨hstop, hitems⟩
  · rcases h' with rfl | ⟨hstop, hitems⟩
    · exact .inl rfl
    · -- What comes first is the same, and stops both if it has a fault.
      obtain ⟨items, _ | fault⟩ := a
      · exact .inr ⟨hstop, (List.prefix_append_right_inj items).2 hitems⟩
      · exact .inl rfl
  · obtain ⟨items, _ | fault⟩ := a
    · exact absurd rfl hstop
    · exact .inr ⟨hstop, hitems.trans (prefix_items_append a' b')⟩

end Output

/-! ## Types -/

namespace TypeExpr

mutual

/-- A type is written with its symbols in order, in an array or not. -/
theorem marks_pieces (t : TypeExpr) (inArray : Bool) :
    (t.pieces inArray).filterMap Piece.mark? = t.symbols.map .usage := by
  cases t with
  | symbol s => rfl
  | named name => rfl
  | union first others =>
    have hfirst := marks_pieces first false
    have hothers := marks_piecesAfter others " | "
    simp only [pieces]
    -- The parentheses of a union in an array are text.
    split
    · simp [hfirst, hothers, symbols]
    · simp [hfirst, hothers, symbols]
  | array element =>
    have helement := marks_pieces element true
    simp [pieces, helement, symbols]
  | generic base args =>
    have hbase := marks_pieces base false
    have hargs := marks_listPieces args
    simp [pieces, hbase, hargs, symbols]

/-- Types with commas between them are written with their symbols in order. -/
theorem marks_listPieces (ts : List TypeExpr) :
    (listPieces ts).filterMap Piece.mark? = (symbolsOfList ts).map .usage := by
  cases ts with
  | nil => rfl
  | cons t ts =>
    have ht := marks_pieces t false
    have hts := marks_piecesAfter ts ", "
    simp [listPieces, ht, hts, symbolsOfList]

/-- Types after separators are written with their symbols in order. -/
theorem marks_piecesAfter (ts : List TypeExpr) (sep : String) :
    (piecesAfter sep ts).filterMap Piece.mark? = (symbolsOfList ts).map .usage := by
  cases ts with
  | nil => rfl
  | cons t ts =>
    have ht := marks_pieces t false
    have hts := marks_piecesAfter ts sep
    simp [piecesAfter, ht, hts, symbolsOfList]

end

/-- A type is written with its symbols in order. -/
@[simp] theorem marks_emission (t : TypeExpr) :
    t.emission.marks = (Output.ofList t.symbols).map .usage :=
  congrArg Output.ofList (marks_pieces t false)

/-- A type after its colon is written with its symbols in order. -/
@[simp] theorem marks_annotation (t : Option TypeExpr) :
    (TypeExpr.annotation t).marks = (typeSymbols t).map .usage := by
  unfold annotation typeSymbols
  cases t with
  | none => rfl
  | some t => simp

end TypeExpr

/-! ## Emissions and what they are made of -/

/-- An emission uses symbols and prints arguments: its marks are the symbols, unless it was stopped
on the way; and without a fault of the symbols it is stopped for the first argument that cannot be
printed. -/
structure Emission.Writes (e : Emission) (used : Output Symbol) (args : List Argument) : Prop where
  /-- The marks are the symbols, up to where the emission was stopped. -/
  cutOf : e.marks.CutOf (used.map .usage)
  /-- What stops the emission is the fault of the symbols, or else that of the arguments. -/
  fault_eq : used.fault = none → e.fault = Fault.ofPrinted args

namespace Emission

/-- An emission whose marks are symbols prints nothing. -/
theorem writes_of_marks_eq {e : Emission} {used : Output Symbol} (h : e.marks = used.map .usage) :
    e.Writes used [] :=
  ⟨.inl h, fun hnone => (congrArg Output.fault h).trans hnone⟩

namespace Writes

variable {e e' : Emission} {used used' : Output Symbol} {args args' : List Argument}

/-- What an emission writes can be seen from its marks. -/
theorem of_marks (h : e.Writes used args) (hmarks : e'.marks = e.marks) : e'.Writes used args where
  cutOf := hmarks ▸ h.cutOf
  fault_eq hnone := (congrArg Output.fault hmarks).trans (h.fault_eq hnone)

/-- Two emissions write one after the other. -/
theorem append (h : e.Writes used args) (h' : e'.Writes used' args') :
    (e ++ e').Writes (used ++ used') (args ++ args') where
  cutOf := by
    rw [Output.marks_append, Output.map_append]
    exact h.cutOf.append h'.cutOf
  fault_eq hnone := by
    obtain ⟨hused, hused'⟩ := Output.fault_append_eq_none.1 hnone
    rw [Output.fault_append, h.fault_eq hused, h'.fault_eq hused', Fault.ofPrinted_append]

/-- Without a fault an emission has the marks of its symbols. -/
theorem marks_eq (h : e.Writes used args) (hnone : e.fault = none) :
    e.marks = used.map .usage :=
  h.cutOf.eq hnone

end Writes

/-- Several things are written one after the other. -/
theorem writes_concat_map {α : Type} {emission : α → Emission} {symbols : α → Output Symbol}
    {printed : α → List Argument} (xs : List α)
    (h : ∀ x, (emission x).Writes (symbols x) (printed x)) :
    Writes (.concat (xs.map emission)) (.concat (xs.map symbols)) (xs.flatMap printed) := by
  induction xs with
  | nil => exact writes_of_marks_eq rfl
  | cons x xs ih => exact (h x).append ih

/-- An argument that is printed stops an emission if it has no text. -/
theorem writes_printed {s : Except Fault String} {a : Argument}
    (h : (printed s).fault = a.fault?) : (printed s).Writes .empty [a] where
  cutOf := by
    cases s with
    | ok s => exact .inl rfl
    | error fault => exact .inr ⟨nofun, List.prefix_rfl⟩
  fault_eq _ := by
    rw [h, Fault.ofPrinted, List.findSome?_singleton]

end Emission

open Emission (Writes writes_of_marks_eq writes_concat_map writes_printed)

/-! ## Code -/

/-- A segment is written with its symbols in order. -/
theorem Segment.writes_emission (s : Segment) :
    s.emission.Writes (.ofList s.symbols) s.printed := by
  cases s with
  | text s => exact writes_of_marks_eq rfl
  | type t => exact writes_of_marks_eq t.marks_emission
  | literal a => exact writes_printed (Emission.fault_printed_literal a)
  | string a => exact writes_printed (Emission.fault_printed_map a Text.quote)

namespace CodeBlock

/-- A code block is written with its symbols in order. -/
theorem writes_emission (b : CodeBlock) : b.emission.Writes b.symbols b.printed := by
  have hsegments := writes_concat_map b.segments.items Segment.writes_emission
  -- After its segments a block may end in a fault, and then its symbols end in it as well.
  have hend : Writes ⟨[], b.segments.fault⟩ ⟨[], b.segments.fault⟩ [] := writes_of_marks_eq rfl
  have hblock := hsegments.append hend
  rwa [List.append_nil] at hblock

/-- A code block after its equals sign is written with its symbols in order. -/
theorem writes_assignment (b : Option CodeBlock) :
    (assignment b).Writes (codeSymbols b) (b.toList.flatMap printed) := by
  cases b with
  | none => exact writes_of_marks_eq rfl
  | some b =>
    rw [Option.toList_some, List.flatMap_singleton]
    exact b.writes_emission.of_marks (by simp [assignment])

/-- A body is written with its symbols in order. -/
theorem writes_bodyEmission (b : CodeBlock) : b.bodyEmission.Writes b.symbols b.printed :=
  b.writes_emission.of_marks (by simp [bodyEmission])

end CodeBlock

/-! ## Parts of declarations -/

/-- Documentation uses no symbol. -/
@[simp] theorem marks_docEmission (doc : Option String) : (docEmission doc).marks = .empty := by
  cases doc <;> rfl

/-- A parameter is written with the symbols of its type. -/
@[simp] theorem Parameter.marks_emission (p : Parameter) :
    p.emission.marks = (typeSymbols p.type).map .usage := by
  have hdefault : Output.marks
      (p.default.elim .empty fun source => Emission.text (" = " ++ source)) = .empty := by
    cases p.default <;> rfl
  simp [emission, hdefault]

namespace Function

/-- A signature is written with the symbols of the parameters and the result. -/
@[simp] theorem marks_signature (f : Function) :
    f.signature.marks = f.signatureSymbols.map .usage := by
  have hparameters : (f.parameters.map Parameter.emission).map Output.marks =
      (f.parameters.map fun p => typeSymbols p.type).map (Output.map .usage) := by
    simp [Function.comp_def]
  simp only [signature, signatureSymbols, Output.marks_append, Emission.marks_text,
    Emission.marks_separated, hparameters, TypeExpr.marks_annotation, Output.map_append,
    Output.map_concat, Output.empty_append, Output.append_empty]

/-- A body that may be missing is written with its symbols. -/
theorem writes_bodyOr (f : Function) (bodiless : String) :
    (f.bodyOr bodiless).Writes (codeSymbols f.body) (f.blocks.flatMap CodeBlock.printed) := by
  unfold bodyOr blocks
  cases f.body with
  | none => exact writes_of_marks_eq rfl
  | some b =>
    rw [Option.toList_some, List.flatMap_singleton]
    exact b.writes_bodyEmission

/-- A signature and a body are written with the symbols of the function. -/
theorem writes_signature_append (f : Function) (bodiless : String) :
    (f.signature ++ f.bodyOr bodiless).Writes f.symbols (f.blocks.flatMap CodeBlock.printed) :=
  (writes_of_marks_eq f.marks_signature).append (f.writes_bodyOr bodiless)

/-- A method of an interface is written with the symbols of its signature. -/
@[simp] theorem marks_interfaceEmission (f : Function) :
    f.interfaceEmission.marks = f.signatureSymbols.map .usage := by
  simp [interfaceEmission]

/-- A method of a class is written with its symbols. -/
theorem writes_classEmission (f : Function) :
    f.classEmission.Writes f.symbols (f.blocks.flatMap CodeBlock.printed) :=
  (f.writes_signature_append ";\n").of_marks (by simp [classEmission])

/-- A function is written with its symbols. -/
theorem writes_emission (f : Function) :
    f.emission.Writes f.symbols (f.blocks.flatMap CodeBlock.printed) :=
  (f.writes_signature_append " \x7b\x7d\n").of_marks (by simp [emission])

end Function

namespace Property

/-- A type and a first value are written with the symbols of the property. -/
theorem writes_annotation_append (p : Property) :
    (TypeExpr.annotation p.type ++ CodeBlock.assignment p.initial).Writes p.symbols
      (p.blocks.flatMap CodeBlock.printed) :=
  (writes_of_marks_eq (TypeExpr.marks_annotation p.type)).append
    (CodeBlock.writes_assignment p.initial)

/-- A property is written with its symbols. -/
theorem writes_memberEmission (p : Property) :
    p.memberEmission.Writes p.symbols (p.blocks.flatMap CodeBlock.printed) :=
  p.writes_annotation_append.of_marks (by simp [memberEmission])

/-- A constant is written with its symbols. -/
theorem writes_constantEmission (p : Property) :
    p.constantEmission.Writes p.symbols (p.blocks.flatMap CodeBlock.printed) :=
  p.writes_annotation_append.of_marks (by simp [constantEmission])

end Property

/-- A constant of an enumeration uses no symbol. -/
theorem Constant.writes_emission (c : Constant) : c.emission.Writes (.ofList []) c.printed := by
  have hdoc : (docEmission c.doc).Writes .empty [] := writes_of_marks_eq (marks_docEmission c.doc)
  have htext : ∀ s, (Emission.text s).Writes .empty [] := fun _ => writes_of_marks_eq rfl
  unfold emission printed
  cases c.value with
  | none => exact hdoc.append (htext _)
  | some value =>
    cases value with
    | text s => exact hdoc.append (htext _)
    | int n => exact hdoc.append (writes_printed (Emission.fault_printed_map (.int n) _))

/-- Types after a word are written with their symbols in order. -/
@[simp] theorem marks_heritage (word : String) (ts : List TypeExpr) :
    (heritage word ts).marks = (typesSymbols ts).map .usage := by
  have hlist : Output.marks (.ofList (TypeExpr.listPieces ts)) = (typesSymbols ts).map .usage :=
    congrArg Output.ofList (TypeExpr.marks_listPieces ts)
  cases ts with
  | nil => rfl
  | cons t ts => simp [heritage, hlist]

/-- A body in braces writes what stands in it; it is blank if nothing does. -/
theorem writes_braced (isBlank : Bool) {body : Emission} {used : Output Symbol}
    {args : List Argument} (h : body.Writes used args)
    (hblank : isBlank = true → used = .empty ∧ args = []) :
    (braced isBlank body).Writes used args := by
  cases isBlank with
  | false => exact h.of_marks (by simp [braced])
  | true =>
    obtain ⟨rfl, rfl⟩ := hblank rfl
    exact writes_of_marks_eq rfl

/-! ## Declarations -/

/-- An interface as it is written, without the bodies of its methods. -/
def Interface.written (d : Interface) : Interface :=
  { d with methods := d.methods.map fun f => { f with body := none } }

/-- A declaration as it is written, without the bodies of the methods of an interface. -/
def Declaration.written : Declaration → Declaration
  | .interface d => .interface d.written
  | d => d

/-- A member as it is written, without the bodies of the methods of an interface. -/
def Member.written : Member → Member
  | .declaration d => .declaration d.written
  | .code b => .code b

/-- An interface is written with its symbols, but for the bodies of its methods. -/
theorem Interface.writes_emission (d : Interface) :
    d.emission.Writes (Declaration.interface d.written).symbols
      (Declaration.interface d).printed := by
  have hproperties := writes_concat_map d.properties Property.writes_memberEmission
  have hmethods := writes_concat_map d.methods fun f =>
    writes_of_marks_eq f.marks_interfaceEmission
  have hbody := writes_braced (d.properties.isEmpty && d.methods.isEmpty)
    (hproperties.append hmethods) (fun hblank => by
      simp only [Bool.and_eq_true, List.isEmpty_iff] at hblank
      rw [hblank.1, hblank.2]
      exact ⟨rfl, rfl⟩)
  have hheritage := writes_of_marks_eq (marks_heritage " extends " d.bases)
  have hall : d.emission.Writes _ _ := (hheritage.append hbody).of_marks (by simp [emission])
  have hsignatures : d.written.methods.map Function.symbols =
      d.methods.map Function.signatureSymbols := by
    rw [written, List.map_map]
    exact List.map_congr_left fun f _ => Output.append_empty f.signatureSymbols
  have hnothing : (d.methods.flatMap fun _ => ([] : List Argument)) = [] := by simp
  rw [hnothing, List.append_nil, List.nil_append, ← List.flatMap_assoc, ← Output.append_assoc,
    ← hsignatures] at hall
  exact hall

/-- A class is written with its symbols. -/
theorem Class.writes_emission (d : Class) :
    d.emission.Writes (Declaration.classType d).symbols (Declaration.classType d).printed := by
  have hproperties := writes_concat_map d.properties Property.writes_memberEmission
  have hmethods := writes_concat_map d.methods Function.writes_classEmission
  have hmembers : Emission.Writes (.concat (d.properties.map Property.memberEmission) ++
      Emission.textIf (!d.properties.isEmpty && !d.methods.isEmpty) "\n" ++
      Emission.separated "\n" (d.methods.map Function.classEmission)) _ _ :=
    (hproperties.append hmethods).of_marks
      (by simp [Emission.marks_separated, Output.marks_concat])
  have hbody := writes_braced (d.properties.isEmpty && d.methods.isEmpty) hmembers
    (fun hblank => by
      simp only [Bool.and_eq_true, List.isEmpty_iff] at hblank
      rw [hblank.1, hblank.2]
      exact ⟨rfl, rfl⟩)
  have hbase : typesSymbols d.base.toList = typeSymbols d.base := by
    cases d.base <;> simp [typesSymbols, typeSymbols, TypeExpr.symbolsOfList]
  have hheritage := (writes_of_marks_eq (marks_heritage " extends " d.base.toList)).append
    (writes_of_marks_eq (marks_heritage " implements " d.interfaces))
  have hall : d.emission.Writes _ _ :=
    (hheritage.append hbody).of_marks (by simp [emission, Output.append_assoc])
  rw [hbase, ← List.flatMap_assoc, ← List.flatMap_assoc, ← List.flatMap_append,
    ← Output.append_assoc] at hall
  exact hall

/-- An enumeration uses no symbol. -/
theorem Enumeration.writes_emission (d : Enumeration) :
    d.emission.Writes .empty (d.constants.flatMap Constant.printed) := by
  have hconstants := writes_concat_map d.constants Constant.writes_emission
  rw [Output.concat_map_ofList] at hconstants
  have hnothing : (d.constants.flatMap fun _ => ([] : List Symbol)) = [] := by simp
  rw [hnothing] at hconstants
  exact hconstants.of_marks (by simp [emission])

/-- A declaration is written with its symbols in order, but for the bodies of the methods of an
interface. -/
theorem Declaration.writes_emission (docs : Docs) (d : Declaration) :
    (d.emission docs).Writes d.written.symbols d.printed := by
  have hbody : d.bodyEmission.Writes d.written.symbols d.printed := by
    cases d with
    | interface d => exact d.writes_emission
    | classType d => exact d.writes_emission
    | enumeration d => exact d.writes_emission
    | function d => exact d.writes_emission
    | constant d => exact d.writes_constantEmission
    | typeAlias d =>
      exact writes_of_marks_eq (by simp [bodyEmission, TypeAlias.emission, written, symbols])
  exact hbody.of_marks (by simp [emission])

/-! ## What is collected and not written -/

/-- The symbols of the bodies of the methods of an interface. -/
def Declaration.hiddenSymbols : Declaration → Output Symbol
  | .interface d => .concat (d.methods.map fun f => codeSymbols f.body)
  | _ => .empty

namespace Output

variable {α β : Type}

/-- The items of `whole`, if it was not stopped, are those of `kept`, in their order, and among them
those of `removed`. -/
def SplitsInto (whole kept removed : Output α) : Prop :=
  whole.fault = none → kept.fault = none ∧ removed.fault = none ∧
    kept.items.Sublist whole.items ∧ whole.items.Perm (kept.items ++ removed.items)

/-- The items of each of several outputs, none of which was stopped, are among all items. -/
theorem mem_of_concat_eq {as : List (Output α)} {items : List α} (h : concat as = ofList items)
    {a : Output α} (ha : a ∈ as) {x : α} (hx : x ∈ a.items) : x ∈ items := by
  obtain ⟨earlier, later, rfl⟩ := List.append_of_mem ha
  rw [concat_append, concat_cons] at h
  have hnone : (concat earlier ++ (a ++ concat later)).fault = none := by
    rw [h]
    rfl
  obtain ⟨hearlier, hrest⟩ := fault_append_eq_none.1 hnone
  obtain ⟨hanone, -⟩ := fault_append_eq_none.1 hrest
  have hitems : (concat earlier ++ (a ++ concat later)).items = items := congrArg Output.items h
  rw [items_append _ hearlier, items_append _ hanone] at hitems
  rw [← hitems]
  exact List.mem_append_right _ (List.mem_append_left _ hx)

/-- Items may all be kept. -/
theorem splitsInto_self (a : Output α) : SplitsInto a a empty := by
  intro h
  exact ⟨h, rfl, List.Sublist.refl _, by simp [empty, ofList]⟩

/-- Items may all be removed. -/
theorem splitsInto_empty (a : Output α) : SplitsInto a empty a := by
  intro h
  exact ⟨rfl, h, List.nil_sublist _, List.Perm.refl _⟩

/-- Two outputs are split one after the other. -/
theorem SplitsInto.append {a a' k k' r r' : Output α} (h : SplitsInto a k r)
    (h' : SplitsInto a' k' r') : SplitsInto (a ++ a') (k ++ k') (r ++ r') := by
  intro hnone
  obtain ⟨ha, ha'⟩ := fault_append_eq_none.1 hnone
  obtain ⟨hk, hr, hsub, hperm⟩ := h ha
  obtain ⟨hk', hr', hsub', hperm'⟩ := h' ha'
  refine ⟨fault_append_eq_none.2 ⟨hk, hk'⟩, fault_append_eq_none.2 ⟨hr, hr'⟩, ?_, ?_⟩
  · rw [items_append _ ha, items_append _ hk]
    exact hsub.append hsub'
  · rw [items_append _ ha, items_append _ hk, items_append _ hr]
    -- The removed items of the first output move past the kept ones of the second.
    calc List.Perm (a.items ++ a'.items) ((k.items ++ r.items) ++ (k'.items ++ r'.items)) :=
          hperm.append hperm'
      _ = k.items ++ ((r.items ++ k'.items) ++ r'.items) := by simp
      List.Perm _ (k.items ++ ((k'.items ++ r.items) ++ r'.items)) :=
          (List.perm_append_comm.append_right r'.items).append_left k.items
      _ = (k.items ++ k'.items) ++ (r.items ++ r'.items) := by simp

/-- Outputs of several things are split one by one. -/
theorem splitsInto_concat_map {whole kept removed : β → Output α} (xs : List β)
    (h : ∀ x, SplitsInto (whole x) (kept x) (removed x)) :
    SplitsInto (concat (xs.map whole)) (concat (xs.map kept)) (concat (xs.map removed)) := by
  induction xs with
  | nil => exact splitsInto_self empty
  | cons x xs ih => exact (h x).append ih

end Output

/-- The symbols of a declaration are those written and those of the bodies of the methods of an
interface. -/
theorem Declaration.symbols_splitsInto (d : Declaration) :
    d.symbols.SplitsInto d.written.symbols d.hiddenSymbols := by
  cases d with
  | interface d =>
    -- Of a method the signature is kept and the body removed; all else is kept.
    have hmethod : ∀ f : Function,
        f.symbols.SplitsInto { f with body := none }.symbols (codeSymbols f.body) := by
      intro f
      have hsignature := f.signatureSymbols.splitsInto_self
      exact hsignature.append (codeSymbols f.body).splitsInto_empty
    have hmethods := Output.splitsInto_concat_map d.methods hmethod
    have hrest :=
      (typesSymbols d.bases ++ .concat (d.properties.map Property.symbols)).splitsInto_self
    simpa [written, Interface.written, symbols, hiddenSymbols, Function.comp_def]
      using hrest.append hmethods
  | classType d => exact Output.splitsInto_self _
  | enumeration d => exact Output.splitsInto_self _
  | function d => exact Output.splitsInto_self _
  | constant d => exact Output.splitsInto_self _
  | typeAlias d => exact Output.splitsInto_self _

/-- A declaration without bodies of methods of an interface is written as it is. -/
theorem Declaration.written_eq_self {d : Declaration}
    (h : ∀ i, d = .interface i → ∀ f ∈ i.methods, f.body = none) : d.written = d := by
  cases d with
  | interface d =>
    have hmethods : (d.methods.map fun f => { f with body := none }) = d.methods := by
      conv_rhs => rw [← List.map_id d.methods]
      refine List.map_congr_left fun f hf => ?_
      rw [← h d rfl f hf]
      rfl
    rw [written, Interface.written, hmethods]
  | classType d | enumeration d | function d | constant d | typeAlias d => rfl

/-! ## Files -/

/-- The symbols of the bodies of the methods of interfaces among the members of a file. -/
def collectHidden (members : List Member) : Except Fault (List Symbol) :=
  (Output.concat
    ((members.filterMap Member.declaration?).map Declaration.hiddenSymbols)).toExcept

namespace Output

variable {α : Type}

/-- All items are there exactly if the output is a list. -/
theorem toExcept_eq_ok_iff {a : Output α} {items : List α} :
    a.toExcept = .ok items ↔ a = ofList items := by
  obtain ⟨xs, _ | fault⟩ := a
  · simp [toExcept, ofList]
  · simp [toExcept, ofList]

/-- An output without a fault is the list of its items. -/
theorem eq_ofList {a : Output α} (h : a.fault = none) : a = ofList a.items := by
  obtain ⟨items, _ | fault⟩ := a
  · rfl
  · cases h

end Output

/-- The declarations of a file as they are written. -/
theorem filterMap_written (members : List Member) :
    (members.map Member.written).filterMap Member.declaration? =
      (members.filterMap Member.declaration?).map Declaration.written := by
  induction members with
  | nil => rfl
  | cons m members ih =>
    cases m with
    | declaration d =>
      have hd : Member.declaration? (.declaration d) = some d := rfl
      have hwritten : Member.declaration? (Member.declaration d).written = some d.written := rfl
      rw [List.map_cons, List.filterMap_cons_some hwritten, List.filterMap_cons_some hd,
        List.map_cons, ih]
    | code b =>
      have hb : Member.declaration? (.code b) = none := rfl
      have hwritten : Member.declaration? (Member.code b).written = none := rfl
      rw [List.map_cons, List.filterMap_cons_none hwritten, List.filterMap_cons_none hb, ih]

/-- If the symbols of a file can be collected, so can the written ones and the hidden ones, which
are the others. -/
theorem collect_written {members : List Member} {typed : List Symbol}
    (h : collect members = .ok typed) :
    ∃ written hidden, collect (members.map Member.written) = .ok written ∧
      collectHidden members = .ok hidden ∧ written.Sublist typed ∧
      typed.Perm (written ++ hidden) := by
  have hsplit := Output.splitsInto_concat_map (members.filterMap Member.declaration?)
    Declaration.symbols_splitsInto
  rw [collect, Output.toExcept_eq_ok_iff] at h
  obtain ⟨hkept, hremoved, hsub, hperm⟩ := hsplit (by rw [h]; rfl)
  rw [h] at hsub hperm
  refine ⟨_, _, ?_, Output.toExcept_eq_ok_iff.2 (Output.eq_ofList hremoved), hsub, hperm⟩
  rw [collect, filterMap_written, List.map_map]
  exact Output.toExcept_eq_ok_iff.2 (Output.eq_ofList hkept)

namespace FileModel

/-- What is written for the members of a file. -/
def membersEmission (f : FileModel) (docs : Docs) : Emission :=
  .concat (f.emissionOrder.map fun m => Emission.withFreshLine (m.emission docs))

/-- The members of a file are written with their symbols. -/
theorem writes_membersEmission (f : FileModel) (docs : Docs) :
    (f.membersEmission docs).Writes
      (.concat (f.declarations.map fun d => d.written.symbols) ++
        .concat (f.codeBlocks.map CodeBlock.symbols)) f.printed := by
  have hdeclarations := writes_concat_map f.declarations (Declaration.writes_emission docs)
  have hcode := writes_concat_map f.codeBlocks CodeBlock.writes_emission
  refine (hdeclarations.append hcode).of_marks ?_
  rw [membersEmission, ← Output.concat_append, Output.marks_concat, Output.marks_concat]
  simp [emissionOrder, Function.comp_def, Member.emission]

/-- The marks of a file are those of its import statements and of its members. -/
theorem marks_emission (f : FileModel) (base : List String) (imports : List Import) (docs : Docs) :
    (f.emission base imports docs).marks =
      (Import.block base f.path imports).marks ++ (f.membersEmission docs).marks := by
  have hheader : Output.concat ((((f.comment.filter (· != "")).map fun comment =>
      Emission.text (Text.headerComment comment)).toList).map Output.marks) = .empty := by
    cases f.comment.filter (· != "") <;> rfl
  have hblock : Output.concat
      ((if imports.isEmpty then [] else [Import.block base f.path imports]).map Output.marks) =
        (Import.block base f.path imports).marks := by
    cases imports with
    | nil => exact (Import.marks_block_nil base f.path).symm
    | cons i imports => simp [Output.concat]
  rw [emission, Emission.marks_separated, sections, List.map_append, List.map_append,
    Output.concat_append, Output.concat_append, hheader, hblock, membersEmission,
    Output.marks_concat, Output.empty_append]

/-- The tokens of a file are its emission, written. -/
theorem tokens_eq_ok {f : FileModel} {config : AssemblyConfig} {imports : List Import}
    {docs : Docs} {tokens : List Token} (h : f.tokens config imports docs = .ok tokens) :
    (f.emission config.base imports docs).fault = none ∧
      tokens = (({ unit := config.indent } : Writer).write
        (f.emission config.base imports docs).items).tokens := by
  unfold FileModel.tokens Output.toExcept at h
  cases hfault : (f.emission config.base imports docs).fault with
  | none =>
    simp only [hfault, Except.map, Except.ok.injEq] at h
    exact ⟨rfl, h.symm⟩
  | some fault => simp [hfault, Except.map] at h

/-- The marks of the tokens of a file are the bindings of its import statements and the written
symbols of its declarations and of its code blocks. -/
theorem marks_tokens {f : FileModel} {config : AssemblyConfig} {imports : List Import}
    {docs : Docs} {tokens : List Token} {written code : List Symbol}
    (htokens : f.tokens config imports docs = .ok tokens)
    (hwritten : collect (f.members.map Member.written) = .ok written)
    (hcode : collectCode f.members = .ok code) :
    ∃ placed, imports.mapM (Import.placed config.base f.path) = .ok placed ∧
      Token.marks tokens =
        (Import.blockSymbols placed).map .binding ++ (written ++ code).map .usage := by
  obtain ⟨hfault, rfl⟩ := tokens_eq_ok htokens
  rw [collect, filterMap_written, List.map_map, Output.toExcept_eq_ok_iff] at hwritten
  rw [collectCode, Output.toExcept_eq_ok_iff] at hcode
  have hdeclarations : Output.concat (f.declarations.map fun d => d.written.symbols) =
      .ofList written := hwritten
  have hblocks : Output.concat (f.codeBlocks.map CodeBlock.symbols) = .ofList code := hcode
  have hmarks := f.marks_emission config.base imports docs
  -- A fault of the import statements or of the members would be one of the file.
  have hnone : ((Import.block config.base f.path imports).marks ++
      (f.membersEmission docs).marks).fault = none := hmarks ▸ hfault
  obtain ⟨hblock, hmembers⟩ := Output.fault_append_eq_none.1 hnone
  rw [(f.writes_membersEmission docs).marks_eq hmembers, hdeclarations, hblocks,
    ← Output.ofList_append] at hmarks
  rcases Import.marks_block config.base f.path imports with ⟨placed, hplaced, hstatements⟩ |
    ⟨fault, -, hstop⟩
  · refine ⟨placed, hplaced, ?_⟩
    have hitems : (f.emission config.base imports docs).items.filterMap Piece.mark? =
        (f.emission config.base imports docs).marks.items := rfl
    rw [Writer.marks_write, hitems, hmarks, hstatements]
    rfl
  · rw [hstop] at hblock
    cases hblock

end FileModel

/-- The symbols that the tokens of a file use, in order and with repetitions, are those collected
from its declarations and then those collected from its code blocks, except for the symbols of the
bodies of the methods of interfaces, which are collected with the others and not written. A type, in
an array or not, is written with its symbols. -/
theorem usages_tokens {f : FileModel} {config : AssemblyConfig} {imports : List Import}
    {docs : Docs} {tokens : List Token} {typed code : List Symbol}
    (htokens : f.tokens config imports docs = .ok tokens)
    (htyped : collect f.members = .ok typed) (hcode : collectCode f.members = .ok code) :
    (∃ written hidden, collect (f.members.map Member.written) = .ok written ∧
        collectHidden f.members = .ok hidden ∧ written.Sublist typed ∧
        typed.Perm (written ++ hidden) ∧ Token.usages tokens = written ++ code) ∧
      ((∀ i, .declaration (.interface i) ∈ f.members → ∀ m ∈ i.methods, m.body = none) →
        Token.usages tokens = typed ++ code) ∧
      ∀ (t : TypeExpr) (inArray : Bool) (w : Writer),
        Token.usages (w.write (t.pieces inArray)).tokens = Token.usages w.tokens ++ t.symbols := by
  obtain ⟨written, hidden, hwritten, hhidden, hsub, hperm⟩ := collect_written htyped
  obtain ⟨placed, -, hmarks⟩ := FileModel.marks_tokens htokens hwritten hcode
  have husages : Token.usages tokens = written ++ code := Token.usages_of_marks_eq hmarks
  refine ⟨⟨written, hidden, hwritten, hhidden, hsub, hperm, husages⟩, ?_, ?_⟩
  · -- Without hidden bodies the members are written as they are.
    intro hbodies
    have hself : f.members.map Member.written = f.members := by
      conv_rhs => rw [← List.map_id f.members]
      refine List.map_congr_left fun m hm => ?_
      cases m with
      | code b => rfl
      | declaration d =>
        have hd : d.written = d := Declaration.written_eq_self fun i hi => by
          subst hi
          exact hbodies i hm
        rw [Member.written, hd]
        rfl
    rw [hself, htyped] at hwritten
    cases hwritten
    exact husages
  · intro t inArray w
    rw [← Token.usages_marks, Writer.marks_write, TypeExpr.marks_pieces, Token.usages_append,
      Token.usages_marks, Token.usages_map_usage]

/-- The body of a method of an interface is collected and not written, and a code block in front of
the interface is collected and written after it. -/
theorem usages_tokens_of_hidden_body :
    let item : Symbol := ⟨"Item", "./item"⟩
    let hidden : Symbol := ⟨"Item", "./hidden"⟩
    let f : FileModel :=
      { path := "store.ts"
        members := [
          .code ⟨"%T;", [.text "Log@./log"]⟩,
          .declaration (.interface
            { name := "Store"
              methods := [
                { name := "all", result := some (.array (.symbol item)),
                  body := some ⟨"%T", [.type (.symbol hidden)]⟩ }] })] }
    collect f.members = .ok [item, hidden] ∧ collectCode f.members = .ok [⟨"Log", "./log"⟩] ∧
      ∃ tokens, f.tokens {} [] [] = .ok tokens ∧
        Token.usages tokens = [item, ⟨"Log", "./log"⟩] := by
  intro item hidden f
  have htokens : f.tokens {} [] [] = .ok
      [.text "export interface Store \x7b\n  all(): ", .usage item, .text "[];\n\x7d\n\n",
        .usage ⟨"Log", "./log"⟩, .text ";\n"] := by decide +kernel
  have htyped : collect f.members = .ok [item, hidden] := by decide +kernel
  have hcode : collectCode f.members = .ok [⟨"Log", "./log"⟩] := by decide +kernel
  have hshown : collect (f.members.map Member.written) = .ok [item] := by decide +kernel
  obtain ⟨⟨written, _, hwritten, -, -, -, husages⟩, -⟩ := usages_tokens htokens htyped hcode
  rw [hshown] at hwritten
  cases hwritten
  exact ⟨htyped, hcode, _, htokens, husages⟩

end ModuleAssembly
