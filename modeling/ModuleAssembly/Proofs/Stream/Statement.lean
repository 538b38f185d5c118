import ModuleAssembly.Proofs.Stream.Traversal

/-!
# Where the import statements stand

At the outermost level nothing is indented, so there the tokens of an import statement are its
pieces (`Writer.write_statementPieces`), up to the text before and after it, with which its own
first and last texts become one token. What is written later leaves these tokens alone, but for the
text it may add to the last one (`Writer.Past.write`). So the stream of a file has a statement for
each specifier of its imports (`FileModel.hasStatement_tokens`).
-/

namespace ModuleAssembly

/-! ## Statements in a stream -/

/-- The text of a statement before its symbols. -/
def Import.statementHead : String :=
  "import \x7b "

/-- The text of a statement after its symbols. -/
def Import.statementTail (specifier : String) : String :=
  " \x7d from " ++ Text.quote specifier ++ ";\n"

/-- There is text after the symbols of a statement. -/
theorem Import.statementTail_ne_empty (specifier : String) : statementTail specifier ≠ "" := by
  simp [statementTail]

namespace Token

/-- The symbols of a statement, with commas between them. -/
def bindingList (symbols : List Symbol) : List Token :=
  (symbols.map .binding).intersperse (.text ", ")

/-- Whether a stream has a statement that binds `symbols` from `specifier`. The texts at its ends
may be part of longer ones. -/
def HasStatement (specifier : String) (symbols : List Symbol) (tokens : List Token) : Prop :=
  ∃ before intro outro after, tokens =
    before ++ .text (intro ++ Import.statementHead) :: bindingList symbols ++
      .text (Import.statementTail specifier ++ outro) :: after

end Token

namespace Import

/-- The pieces of a statement. -/
def statementPieces (specifier : String) (symbols : List Symbol) : List Piece :=
  .text statementHead :: (symbols.map .binding).intersperse (.text ", ") ++
    [.text (statementTail specifier)]

end Import

/-- Single pieces with a text between them. -/
theorem Emission.separated_single (sep : String) (ps : List Piece) :
    separated sep (ps.map .single) = .ofList (ps.intersperse (.text sep)) := by
  cases ps with
  | nil => rfl
  | cons p ps =>
    rw [List.map_cons, separated]
    induction ps generalizing p with
    | nil => rfl
    | cons q ps ih =>
      have hrest : Output.concat (((q :: ps).map .single).map (text sep ++ ·)) =
          text sep ++ (.single q ++ Output.concat ((ps.map .single).map (text sep ++ ·))) :=
        Output.append_assoc _ _ _
      rw [hrest, ih q]
      rfl

/-- A statement is written as its pieces. -/
theorem Import.statement_eq (specifier : String) (imports : List Import) :
    statement specifier imports = .ofList (statementPieces specifier (boundSymbols imports)) := by
  have hsingle :
      ((imports.mergeSort precedes).map fun i => Output.single (Piece.binding i.symbol)) =
        ((boundSymbols imports).map Piece.binding).map .single := by
    rw [boundSymbols, List.map_map, List.map_map]
    rfl
  rw [statement, hsingle, Emission.separated_single]
  rfl

/-- The import statements of a file, if its imports can be placed, are written as the pieces of each
in turn. -/
theorem Import.block_eq_ofList {base : List String} {file : String} {imports : List Import}
    {result : List (String × Import)} (h : imports.mapM (placed base file) = .ok result) :
    block base file imports = .ofList ((specifiers result).flatMap fun specifier =>
      statementPieces specifier (boundSymbols (placedAt specifier result))) := by
  have hstatements : block base file imports = statements result := by rw [block, h]
  rw [hstatements, statements_eq, ← Output.concat_map_ofList]
  congr 1
  exact List.map_congr_left fun specifier _ => statement_eq specifier _

/-- The import statements of a file with one import are written as the pieces of its statement. -/
theorem Import.block_singleton {base : List String} {file specifier : String} {i : Import}
    (h : placed base file i = .ok (specifier, i)) :
    block base file [i] = .ofList (statementPieces specifier [i.symbol]) := by
  have hplaced : [i].mapM (placed base file) = .ok [(specifier, i)] := by
    rw [List.mapM_cons, h]
    rfl
  -- The only specifier and the only import need not be sorted.
  have hspecifiers : specifiers [(specifier, i)] = [specifier] := List.mergeSort_singleton _
  have hsymbols : boundSymbols (placedAt specifier [(specifier, i)]) = [i.symbol] := by
    simp [boundSymbols, placedAt]
  rw [block_eq_ofList hplaced, hspecifiers, List.flatMap_singleton, hsymbols]

/-! ## What stays -/

namespace Writer

/-- A writer is past a text if the text, perhaps with something added to it, stands in its tokens
after the older ones, whatever came later. -/
def Past (t : String) (older : List Token) (w : Writer) : Prop :=
  ∃ newer s, w.latest = newer ++ .text (t ++ s) :: older

/-- A writer that has just written a text is past it. -/
theorem past_of_latest_eq {w : Writer} {t : String} {older : List Token}
    (h : w.latest = .text t :: older) : w.Past t older :=
  ⟨[], "", by simpa using h⟩

namespace Past

variable {w : Writer} {t : String} {older : List Token}

/-- A symbol that is written stays past it. -/
theorem cons (h : w.Past t older) (m : Token) :
    { w with latest := m :: w.latest }.Past t older := by
  obtain ⟨newer, s, hlatest⟩ := h
  exact ⟨m :: newer, s, by simp [hlatest]⟩

/-- Text that is added stays past it. -/
theorem append (h : w.Past t older) (s : String) : (w.append s).Past t older := by
  obtain ⟨latest, unit, level, atLineStart⟩ := w
  obtain ⟨newer, s', hlatest⟩ := h
  simp only at hlatest
  subst hlatest
  cases newer with
  | nil =>
    -- The text is the latest token and takes what is added.
    exact ⟨[], s' ++ s, by simp [Writer.append, String.append_assoc]⟩
  | cons m newer =>
    cases m with
    | text u => exact ⟨.text (u ++ s) :: newer, s', rfl⟩
    | usage x => exact ⟨.text s :: .usage x :: newer, s', rfl⟩
    | binding x => exact ⟨.text s :: .binding x :: newer, s', rfl⟩

/-- Indentation stays past it. -/
theorem beginLine (h : w.Past t older) : w.beginLine.Past t older :=
  beginLine_preserves (P := Past t older) (fun _ s hw => hw.append s) (fun _ _ hw => hw) h

/-- Text that is put stays past it. -/
theorem putText (h : w.Past t older) (s : String) : (w.putText s).Past t older :=
  putText_preserves (P := Past t older) (fun _ s hw => hw.append s) (fun _ _ hw => hw) h s

/-- A piece stays past it. -/
theorem put (h : w.Past t older) (p : Piece) : (w.put p).Past t older := by
  cases p with
  | text s => exact h.putText s
  | usage s => exact h.beginLine.cons (.usage s)
  | binding s => exact h.beginLine.cons (.binding s)
  | indent => exact h
  | unindent => exact h
  | freshLine =>
    simp only [Writer.put]
    split
    · exact h
    · exact h.putText "\n"

/-- Pieces stay past it. -/
theorem write (h : w.Past t older) (ps : List Piece) : (w.write ps).Past t older := by
  unfold Writer.write
  induction ps generalizing w with
  | nil => exact h
  | cons p ps ih => exact ih (h.put p)

end Past

/-! ## The outermost level -/

/-- Text does not change the level. -/
@[simp] theorem level_append (w : Writer) (s : String) : (w.append s).level = w.level := by
  unfold append
  split
  · rfl
  · rfl

/-- Indentation does not change the level. -/
@[simp] theorem level_beginLine (w : Writer) : w.beginLine.level = w.level :=
  beginLine_preserves (P := fun v => v.level = w.level)
    (fun v s hv => (level_append v s).trans hv) (fun _ _ hv => hv) rfl

/-- A character does not change the level. -/
@[simp] theorem level_putChar (w : Writer) (c : Char) : (w.putChar c).level = w.level :=
  putChar_preserves (P := fun v => v.level = w.level)
    (fun v s hv => (level_append v s).trans hv) (fun _ _ hv => hv) rfl c

/-- Text that is put does not change the level. -/
@[simp] theorem level_putText (w : Writer) (s : String) : (w.putText s).level = w.level :=
  putText_preserves (P := fun v => v.level = w.level)
    (fun v s hv => (level_append v s).trans hv) (fun _ _ hv => hv) rfl s

/-- At the outermost level a line begins without indentation. -/
theorem latest_beginLine {w : Writer} (h : w.level = 0) : w.beginLine.latest = w.latest := by
  unfold beginLine
  split
  · simp [h]
  · rfl

/-- At the outermost level a symbol is one token. -/
theorem latest_putSymbol {w : Writer} (h : w.level = 0) (t : Token) :
    (w.putSymbol t).latest = t :: w.latest := by
  unfold putSymbol
  dsimp only
  rw [latest_beginLine h]

/-- What text adds depends on the tokens alone. -/
theorem latest_append_congr {w v : Writer} (h : w.latest = v.latest) (s : String) :
    (w.append s).latest = (v.append s).latest := by
  obtain ⟨latest, unit, level, atLineStart⟩ := w
  obtain ⟨latest', unit', level', atLineStart'⟩ := v
  simp only at h
  subst h
  cases latest with
  | nil => rfl
  | cons m older => cases m <;> rfl

/-- Text is added to the latest text. -/
theorem latest_append_of_text {w : Writer} {t : String} {older : List Token}
    (h : w.latest = .text t :: older) (s : String) :
    (w.append s).latest = .text (t ++ s) :: older := by
  rw [latest_append_congr (v := ⟨.text t :: older, w.unit, w.level, w.atLineStart⟩) h]
  rfl

/-- Text is a token of its own after a symbol, and as the first token. -/
theorem latest_append_of_mark {w : Writer} (h : ∀ m ∈ w.latest.head?, m.isMark = true)
    (s : String) : (w.append s).latest = .text s :: w.latest := by
  obtain ⟨latest, unit, level, atLineStart⟩ := w
  cases latest with
  | nil => rfl
  | cons m older =>
    cases m with
    | text t => exact absurd (h (.text t) rfl) Bool.false_ne_true
    | usage x => rfl
    | binding x => rfl

/-- Text that is added becomes part of the latest text, or a token of its own where no text comes
last. -/
theorem latest_append_cases (w : Writer) (s : String) :
    (∃ t older, w.latest = .text t :: older ∧ (w.append s).latest = .text (t ++ s) :: older) ∨
      (∀ m ∈ w.latest.head?, m.isMark = true) ∧ (w.append s).latest = .text s :: w.latest := by
  by_cases hmark : ∀ m ∈ w.latest.head?, m.isMark = true
  · exact .inr ⟨hmark, latest_append_of_mark hmark s⟩
  · push Not at hmark
    obtain ⟨m, hm, htext⟩ := hmark
    obtain ⟨older, hlatest⟩ := List.head?_eq_some_iff.1 hm
    cases m with
    | text t => exact .inl ⟨t, older, hlatest, latest_append_of_text hlatest s⟩
    | usage x | binding x => exact absurd rfl htext

/-- At the outermost level a character is added as it is. -/
theorem latest_putChar {w : Writer} (h : w.level = 0) (c : Char) :
    (w.putChar c).latest = (w.append (String.singleton c)).latest := by
  unfold putChar
  split
  · next hc => rw [hc]; rfl
  · exact latest_append_congr (latest_beginLine h) _

/-- At the outermost level a text is added to the latest text as it is. -/
theorem latest_putText_of_text {w : Writer} (h : w.level = 0) {t : String} {older : List Token}
    (hlatest : w.latest = .text t :: older) (s : String) :
    (w.putText s).latest = .text (t ++ s) :: older := by
  -- Each character extends the latest text, so the induction is over texts and writers alike.
  have hchars : ∀ cs : List Char, ∀ (v : Writer) (t : String), v.level = 0 →
      v.latest = .text t :: older →
      (cs.foldl Writer.putChar v).latest = .text (t ++ String.ofList cs) :: older := by
    intro cs
    induction cs with
    | nil =>
      intro v t _ hv
      simpa using hv
    | cons c cs ih =>
      intro v t hlevel hv
      have hc : (v.putChar c).latest = .text (t ++ String.singleton c) :: older := by
        rw [latest_putChar hlevel, latest_append_of_text hv]
      rw [List.foldl_cons, ih _ _ (by rwa [level_putChar]) hc, String.append_assoc,
        String.ofList_cons]
  have hs := hchars s.toList w t h hlatest
  rwa [String.ofList_toList] at hs

/-- At the outermost level a text after a symbol, and as the first token, is a token. -/
theorem latest_putText_of_mark {w : Writer} (h : w.level = 0)
    (hlatest : ∀ m ∈ w.latest.head?, m.isMark = true) {s : String} (hs : s ≠ "") :
    (w.putText s).latest = .text s :: w.latest := by
  -- The first character makes the token, to which the others are added.
  cases hcs : s.toList with
  | nil => exact absurd (String.toList_eq_nil_iff.1 hcs) hs
  | cons c cs =>
    have hc : (w.putChar c).latest = .text (String.singleton c) :: w.latest := by
      rw [latest_putChar h, latest_append_of_mark hlatest]
    have hrest := latest_putText_of_text (by rwa [level_putChar]) hc (String.ofList cs)
    have hput : w.putText s = (w.putChar c).putText (String.ofList cs) := by
      simp only [putText, hcs, String.toList_ofList, List.foldl_cons]
    rw [hput, hrest, ← String.ofList_cons, ← hcs, String.ofList_toList]

/-- The text that the tokens end in. -/
def ending (w : Writer) : String :=
  match w.latest with
  | .text t :: _ => t
  | _ => ""

/-- The tokens before the text that they end in, the latest first. -/
def beforeEnding (w : Writer) : List Token :=
  match w.latest with
  | .text _ :: older => older
  | latest => latest

/-- At the outermost level a text is added to the one that the tokens end in. -/
theorem latest_putText {w : Writer} (h : w.level = 0) {s : String} (hs : s ≠ "") :
    (w.putText s).latest = .text (w.ending ++ s) :: w.beforeEnding := by
  cases hlatest : w.latest with
  | nil =>
    rw [latest_putText_of_mark h (by simp [hlatest]) hs]
    simp [ending, beforeEnding, hlatest]
  | cons m older =>
    cases m with
    | text t =>
      rw [latest_putText_of_text h hlatest]
      simp [ending, beforeEnding, hlatest]
    | usage x | binding x =>
      rw [latest_putText_of_mark h (by simp [hlatest, Token.isMark]) hs]
      simp [ending, beforeEnding, hlatest]

/-- At the outermost level symbols with commas between them are their tokens, the last one a
symbol. -/
theorem write_bindings {w : Writer} (h : w.level = 0) (s : Symbol) (symbols : List Symbol) :
    let v := w.write (((s :: symbols).map .binding).intersperse (.text ", "))
    v.latest = (Token.bindingList (s :: symbols)).reverse ++ w.latest ∧ v.level = 0 ∧
      ∀ m ∈ v.latest.head?, m.isMark = true := by
  have hsymbol : (w.putSymbol (.binding s)).latest = .binding s :: w.latest :=
    latest_putSymbol h (.binding s)
  have hlevel : (w.putSymbol (.binding s)).level = 0 := by simpa [putSymbol] using h
  have hmark : ∀ m ∈ (w.putSymbol (.binding s)).latest.head?, m.isMark = true := by
    simp [hsymbol, Token.isMark]
  induction symbols generalizing s w with
  | nil => exact ⟨hsymbol, hlevel, hmark⟩
  | cons r symbols ih =>
    -- After the first symbol and its comma the others follow.
    generalize hv : (w.putSymbol (.binding s)).putText ", " = v
    have hcomma : v.latest = .text ", " :: .binding s :: w.latest := by
      rw [← hv, latest_putText_of_mark hlevel hmark (by decide), hsymbol]
    have hvlevel : v.level = 0 := by rw [← hv, level_putText, hlevel]
    have hwrite : w.write (((s :: r :: symbols).map .binding).intersperse (.text ", ")) =
        v.write (((r :: symbols).map .binding).intersperse (.text ", ")) := by
      rw [← hv]
      rfl
    have hr : (v.putSymbol (.binding r)).latest = .binding r :: v.latest :=
      latest_putSymbol hvlevel (.binding r)
    obtain ⟨hlatest, hrest⟩ := ih hvlevel r hr (by simpa [putSymbol] using hvlevel)
      (by simp [hr, Token.isMark])
    rw [hwrite]
    refine ⟨?_, hrest⟩
    rw [hlatest, hcomma]
    simp [Token.bindingList]

/-- A piece of text is written as the text. -/
theorem put_text (w : Writer) (s : String) : w.put (.text s) = w.putText s :=
  rfl

/-- So is a piece of text alone. -/
theorem write_text (w : Writer) (s : String) : w.write [.text s] = w.putText s :=
  rfl

/-- At the outermost level a statement is its symbols between two texts, of which the first is added
to the one that the tokens end in. -/
theorem latest_write_statementPieces {w : Writer} (h : w.level = 0) (specifier : String)
    {symbols : List Symbol} (hsymbols : symbols ≠ []) :
    let v := w.write (Import.statementPieces specifier symbols)
    v.level = 0 ∧ v.latest = .text (Import.statementTail specifier) ::
      ((Token.bindingList symbols).reverse ++
        .text (w.ending ++ Import.statementHead) :: w.beforeEnding) := by
  obtain ⟨s, symbols, rfl⟩ := List.exists_cons_of_ne_nil hsymbols
  have hhead := latest_putText (s := Import.statementHead) h (by decide)
  have hlevel : (w.putText Import.statementHead).level = 0 := by rw [level_putText, h]
  obtain ⟨hbindings, hvlevel, hmark⟩ := write_bindings hlevel s symbols
  generalize hv : (w.putText Import.statementHead).write
    (((s :: symbols).map .binding).intersperse (.text ", ")) = v at hbindings hvlevel hmark
  have hwrite : w.write (Import.statementPieces specifier (s :: symbols)) =
      v.putText (Import.statementTail specifier) := by
    rw [Import.statementPieces, write_append, write_cons w, put_text, hv, write_text]
  have htail : (v.putText (Import.statementTail specifier)).latest =
      .text (Import.statementTail specifier) :: v.latest :=
    latest_putText_of_mark hvlevel hmark (Import.statementTail_ne_empty specifier)
  rw [hwrite]
  exact ⟨by rw [level_putText, hvlevel], by rw [htail, hbindings, hhead]⟩

/-- A statement that is written at the outermost level stands in the stream, whatever follows. -/
theorem write_statementPieces {w : Writer} (h : w.level = 0) (specifier : String)
    {symbols : List Symbol} (hsymbols : symbols ≠ []) (after : List Piece) :
    Token.HasStatement specifier symbols
      ((w.write (Import.statementPieces specifier symbols)).write after).tokens := by
  obtain ⟨-, hstatement⟩ := latest_write_statementPieces h specifier hsymbols
  -- What follows may add to the last text, and nothing else of the statement changes.
  obtain ⟨newer, outro, hlatest⟩ := (past_of_latest_eq hstatement).write after
  refine ⟨w.beforeEnding.reverse, w.ending, outro, newer.reverse, ?_⟩
  rw [tokens, hlatest]
  simp

end Writer

/-! ## Emissions that keep the level -/

namespace Emission

/-- Whether an emission that is not stopped leaves the level of indentation as it finds it. -/
def KeepsLevel (e : Emission) : Prop :=
  e.fault = none → ∀ w : Writer, (w.write e.items).level = w.level

/-- Nothing keeps the level. -/
theorem keepsLevel_empty : KeepsLevel .empty :=
  fun _ _ => rfl

/-- Text keeps the level. -/
theorem keepsLevel_text (s : String) : (text s).KeepsLevel :=
  fun _ w => w.level_putText s

/-- A symbol keeps the level. -/
theorem keepsLevel_binding (s : Symbol) : KeepsLevel (.single (.binding s)) :=
  fun _ w => w.level_beginLine

/-- Two emissions keep the level if each does. -/
theorem KeepsLevel.append {a b : Emission} (ha : a.KeepsLevel) (hb : b.KeepsLevel) :
    KeepsLevel (a ++ b) := by
  intro hnone w
  obtain ⟨hanone, hbnone⟩ := Output.fault_append_eq_none.1 hnone
  rw [Output.items_append b hanone, Writer.write_append, hb hbnone, ha hanone]

/-- Several emissions keep the level if each does. -/
theorem keepsLevel_concat {es : List Emission} (h : ∀ e ∈ es, e.KeepsLevel) :
    KeepsLevel (.concat es) := by
  induction es with
  | nil => exact keepsLevel_empty
  | cons e es ih =>
    rw [Output.concat_cons]
    exact (h e List.mem_cons_self).append (ih fun e' he' => h e' (List.mem_cons_of_mem e he'))

/-- Several emissions after a text keep the level if each does. -/
theorem keepsLevel_concat_after (sep : String) {es : List Emission} (h : ∀ e ∈ es, e.KeepsLevel) :
    KeepsLevel (.concat (es.map (text sep ++ ·))) := by
  refine keepsLevel_concat fun e he => ?_
  obtain ⟨e', he', rfl⟩ := List.mem_map.1 he
  exact (keepsLevel_text sep).append (h e' he')

/-- Emissions with a text between them keep the level if each does. -/
theorem keepsLevel_separated (sep : String) {es : List Emission} (h : ∀ e ∈ es, e.KeepsLevel) :
    (separated sep es).KeepsLevel := by
  cases es with
  | nil => exact keepsLevel_empty
  | cons e es =>
    rw [separated]
    exact (h e List.mem_cons_self).append
      (keepsLevel_concat_after sep fun e' he' => h e' (List.mem_cons_of_mem e he'))

/-- Each of several emissions with a text between them has something before it, which keeps the
level if the emissions there do, and something after it. -/
theorem exists_separated_eq (sep : String) (es : List Emission) (e : Emission)
    (es' : List Emission) (h : ∀ e ∈ es, e.KeepsLevel) :
    ∃ before after : Emission, before.KeepsLevel ∧
      separated sep (es ++ e :: es') = before ++ e ++ after := by
  cases es with
  | nil => exact ⟨.empty, _, keepsLevel_empty, rfl⟩
  | cons e₀ es =>
    refine ⟨e₀ ++ .concat (es.map (text sep ++ ·)) ++ text sep,
      .concat (es'.map (text sep ++ ·)), ?_, ?_⟩
    · refine ((h e₀ List.mem_cons_self).append ?_).append (keepsLevel_text sep)
      exact keepsLevel_concat_after sep fun e' he' => h e' (List.mem_cons_of_mem e₀ he')
    · rw [List.cons_append, separated, List.map_append, Output.concat_append, List.map_cons,
        Output.concat_cons]
      simp only [Output.append_assoc]

end Emission

/-! ## The statements of a file -/

/-- A statement keeps the level. -/
theorem Import.keepsLevel_statement (specifier : String) (imports : List Import) :
    (statement specifier imports).KeepsLevel := by
  have hsymbols : ∀ e ∈ (imports.mergeSort precedes).map fun i =>
      Output.single (Piece.binding i.symbol), Emission.KeepsLevel e := by
    intro e he
    obtain ⟨i, -, rfl⟩ := List.mem_map.1 he
    exact Emission.keepsLevel_binding i.symbol
  unfold statement
  exact ((Emission.keepsLevel_text _).append (Emission.keepsLevel_separated ", " hsymbols)).append
    (Emission.keepsLevel_text _)

/-- The statement for a specifier has others before it, which keep the level, and after it. -/
theorem Import.exists_statements_eq {imports : List (String × Import)} {specifier : String}
    (h : specifier ∈ specifiers imports) :
    ∃ before after : Emission, before.KeepsLevel ∧
      statements imports = before ++ statement specifier (placedAt specifier imports) ++ after := by
  obtain ⟨earlier, later, hsplit⟩ := List.append_of_mem h
  refine ⟨.concat (earlier.map fun sp => statement sp (placedAt sp imports)),
    .concat (later.map fun sp => statement sp (placedAt sp imports)), ?_, ?_⟩
  · refine Emission.keepsLevel_concat fun e he => ?_
    obtain ⟨sp, -, rfl⟩ := List.mem_map.1 he
    exact keepsLevel_statement sp _
  · rw [statements_eq, hsplit, List.map_append, Output.concat_append, List.map_cons,
      Output.concat_cons, Output.append_assoc]

namespace FileModel

/-- The statement for a specifier of the imports of a file has something before it, which keeps the
level, and something after it. -/
theorem exists_emission_eq (f : FileModel) {base : List String} {imports : List Import}
    (docs : Docs) {placed : List (String × Import)} {specifier : String}
    (hplaced : imports.mapM (Import.placed base f.path) = .ok placed)
    (h : specifier ∈ Import.specifiers placed) :
    ∃ before after : Emission, before.KeepsLevel ∧ f.emission base imports docs =
      before ++ Import.statement specifier (Import.placedAt specifier placed) ++ after := by
  have hblock : Import.block base f.path imports = Import.statements placed := by
    rw [Import.block, hplaced]
  have hsome : imports.isEmpty = false := by
    cases imports with
    | nil =>
      rw [List.mapM_nil] at hplaced
      cases hplaced
      exact absurd (Import.mem_specifiers.1 h) (by simp)
    | cons i imports => rfl
  have hsections : f.sections base imports docs =
      ((f.comment.filter (· != "")).map fun comment =>
        Emission.text (Text.headerComment comment)).toList ++
      Import.statements placed ::
        f.emissionOrder.map fun m => Emission.withFreshLine (m.emission docs) := by
    simp [sections, hsome, hblock]
  have hheader : ∀ e ∈ ((f.comment.filter (· != "")).map fun comment =>
      Emission.text (Text.headerComment comment)).toList, Emission.KeepsLevel e := by
    intro e he
    obtain ⟨comment, -, rfl⟩ := Option.map_eq_some_iff.1 (Option.mem_toList.1 he)
    exact Emission.keepsLevel_text _
  obtain ⟨before, after, hbefore, hfile⟩ := Emission.exists_separated_eq "\n" _
    (Import.statements placed)
    (f.emissionOrder.map fun m => Emission.withFreshLine (m.emission docs)) hheader
  obtain ⟨earlier, later, hearlier, hstatements⟩ := Import.exists_statements_eq h
  refine ⟨before ++ earlier, later ++ after, hbefore.append hearlier, ?_⟩
  rw [emission, hsections, hfile, hstatements]
  simp only [Output.append_assoc]

/-- The stream of a file has the statement for each specifier of its imports. -/
theorem hasStatement_tokens {f : FileModel} {config : AssemblyConfig} {imports : List Import}
    {docs : Docs} {tokens : List Token} {placed : List (String × Import)} {specifier : String}
    (htokens : f.tokens config imports docs = .ok tokens)
    (hplaced : imports.mapM (Import.placed config.base f.path) = .ok placed)
    (h : specifier ∈ Import.specifiers placed) :
    Token.HasStatement specifier (Import.boundSymbols (Import.placedAt specifier placed))
      tokens := by
  obtain ⟨hfault, rfl⟩ := tokens_eq_ok htokens
  obtain ⟨before, after, hbefore, hemission⟩ := f.exists_emission_eq docs hplaced h
  rw [hemission] at hfault ⊢
  obtain ⟨hfirst, -⟩ := Output.fault_append_eq_none.1 hfault
  obtain ⟨hnone, -⟩ := Output.fault_append_eq_none.1 hfirst
  rw [Output.items_append _ hfirst, Output.items_append _ hnone, Import.statement_eq,
    Writer.write_append, Writer.write_append]
  have hsymbols : Import.boundSymbols (Import.placedAt specifier placed) ≠ [] := by
    obtain ⟨p, hp, hspecifier⟩ := List.mem_map.1 (Import.mem_specifiers.1 h)
    exact List.ne_nil_of_mem (Import.mem_boundSymbols.2 ⟨p, hp, hspecifier, rfl⟩)
  exact Writer.write_statementPieces (hbefore hnone _) specifier hsymbols after.items

end FileModel

end ModuleAssembly
