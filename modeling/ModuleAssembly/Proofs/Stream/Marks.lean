import ModuleAssembly.Emission

/-!
# The symbols in a stream of tokens

A stream of tokens has marks, the places where it uses or binds a symbol, between its text. Writing
pieces adds the marks of these pieces to a stream and no others, whatever the state of the writer
(`Writer.marks_write`), so the marks of a stream can be read off the pieces, and those of a longer
emission are put together from its parts (`Output.marks_append`, `Output.marks_concat`).

A writer writes text by appending to its tokens and by noting where the line is; what these two
leave true, writing text leaves true (`Writer.putText_preserves`).
-/

namespace ModuleAssembly

namespace Token

/-- Whether a token is the place of a symbol and not text. -/
def isMark : Token → Bool
  | .text _ => false
  | .usage _ | .binding _ => true

/-- The symbol that a token uses, if it uses one. -/
def usage? : Token → Option Symbol
  | .usage s => some s
  | .text _ | .binding _ => none

/-- The symbol that a token binds, if it binds one. -/
def binding? : Token → Option Symbol
  | .binding s => some s
  | .text _ | .usage _ => none

/-- The marks of a stream. -/
def marks (tokens : List Token) : List Token :=
  tokens.filter isMark

/-- The symbols that a stream uses, in order, with repetitions. -/
def usages (tokens : List Token) : List Symbol :=
  tokens.filterMap usage?

/-- The symbols that a stream binds, in order, with repetitions. -/
def bindings (tokens : List Token) : List Symbol :=
  tokens.filterMap binding?

/-- The symbols that two streams use. -/
theorem usages_append (tokens others : List Token) :
    usages (tokens ++ others) = usages tokens ++ usages others :=
  List.filterMap_append

/-- The symbols that two streams bind. -/
theorem bindings_append (tokens others : List Token) :
    bindings (tokens ++ others) = bindings tokens ++ bindings others :=
  List.filterMap_append

/-- Only marks use symbols. -/
theorem usages_marks (tokens : List Token) : usages (marks tokens) = usages tokens := by
  unfold usages marks
  rw [List.filterMap_filter]
  congr 1
  funext t
  cases t <;> rfl

/-- Only marks bind symbols. -/
theorem bindings_marks (tokens : List Token) : bindings (marks tokens) = bindings tokens := by
  unfold bindings marks
  rw [List.filterMap_filter]
  congr 1
  funext t
  cases t <;> rfl

/-- A symbol is used by a stream exactly if a token uses it. -/
theorem mem_usages {tokens : List Token} {s : Symbol} :
    s ∈ usages tokens ↔ .usage s ∈ tokens := by
  simp only [usages, List.mem_filterMap]
  constructor
  · rintro ⟨t, ht, hs⟩
    cases t with
    | usage r => rwa [← Option.some.inj hs]
    | text _ | binding _ => cases hs
  · exact fun h => ⟨_, h, rfl⟩

/-- Places of use use their symbols. -/
@[simp] theorem usages_map_usage (symbols : List Symbol) :
    usages (symbols.map .usage) = symbols := by
  simp [usages, List.filterMap_map, Function.comp_def, usage?]

/-- Places of use bind nothing. -/
@[simp] theorem bindings_map_usage (symbols : List Symbol) :
    bindings (symbols.map .usage) = [] := by
  simp [bindings, binding?]

/-- Bindings use nothing. -/
@[simp] theorem usages_map_binding (symbols : List Symbol) :
    usages (symbols.map .binding) = [] := by
  simp [usages, usage?]

/-- Bindings bind their symbols. -/
@[simp] theorem bindings_map_binding (symbols : List Symbol) :
    bindings (symbols.map .binding) = symbols := by
  simp [bindings, List.filterMap_map, Function.comp_def, binding?]

/-- A stream whose marks are bindings and then uses uses the symbols of these. -/
theorem usages_of_marks_eq {tokens : List Token} {bound used : List Symbol}
    (h : marks tokens = bound.map .binding ++ used.map .usage) : usages tokens = used := by
  rw [← usages_marks, h, usages_append, usages_map_binding, usages_map_usage, List.nil_append]

/-- A stream whose marks are bindings and then uses binds the symbols of those. -/
theorem bindings_of_marks_eq {tokens : List Token} {bound used : List Symbol}
    (h : marks tokens = bound.map .binding ++ used.map .usage) : bindings tokens = bound := by
  rw [← bindings_marks, h, bindings_append, bindings_map_binding, bindings_map_usage,
    List.append_nil]

end Token

/-- The mark that a piece leaves, if it leaves one. -/
def Piece.mark? : Piece → Option Token
  | .usage s => some (.usage s)
  | .binding s => some (.binding s)
  | .text _ | .indent | .unindent | .freshLine => none

/-- Text in front leaves no mark. -/
@[simp] theorem Piece.filterMap_mark?_text (s : String) (ps : List Piece) :
    (Piece.text s :: ps).filterMap mark? = ps.filterMap mark? :=
  rfl

/-! ## Writing -/

namespace Writer

section Preserved

variable {P : Writer → Prop} (happend : ∀ w s, P w → P (w.append s))
  (hline : ∀ (w : Writer) (atLineStart : Bool), P w → P { w with atLineStart := atLineStart })

include happend hline

/-- What stays true when text is appended, wherever the line is, stays true when a line begins. -/
theorem beginLine_preserves {w : Writer} (h : P w) : P w.beginLine := by
  unfold beginLine
  split
  · have hbegun : P { w with atLineStart := false } := hline w false h
    dsimp only
    split
    · exact hbegun
    · exact happend _ _ hbegun
  · exact h

/-- It stays true when a character is put. -/
theorem putChar_preserves {w : Writer} (h : P w) (c : Char) : P (w.putChar c) := by
  unfold putChar
  split
  · exact hline _ true (happend w "\n" h)
  · exact happend _ _ (beginLine_preserves happend hline h)

/-- It stays true when a text is put. -/
theorem putText_preserves {w : Writer} (h : P w) (s : String) : P (w.putText s) := by
  unfold putText
  induction s.toList generalizing w with
  | nil => exact h
  | cons c cs ih => exact ih (putChar_preserves happend hline h c)

end Preserved

/-- The marks written so far, the latest first. -/
def latestMarks (w : Writer) : List Token :=
  w.latest.filter Token.isMark

/-- The marks of the tokens are those written. -/
theorem marks_tokens (w : Writer) : Token.marks w.tokens = w.latestMarks.reverse := by
  simp [Token.marks, tokens, latestMarks, List.filter_reverse]

/-- Text leaves no mark. -/
@[simp] theorem latestMarks_append (w : Writer) (s : String) :
    (w.append s).latestMarks = w.latestMarks := by
  unfold append
  split
  · rfl
  · rfl

/-- Indentation leaves no mark. -/
@[simp] theorem latestMarks_beginLine (w : Writer) : w.beginLine.latestMarks = w.latestMarks :=
  beginLine_preserves (P := fun v => v.latestMarks = w.latestMarks)
    (fun v s hv => (latestMarks_append v s).trans hv) (fun _ _ hv => hv) rfl

/-- Nor does text that is put. -/
@[simp] theorem latestMarks_putText (w : Writer) (s : String) :
    (w.putText s).latestMarks = w.latestMarks :=
  putText_preserves (P := fun v => v.latestMarks = w.latestMarks)
    (fun v s hv => (latestMarks_append v s).trans hv) (fun _ _ hv => hv) rfl s

/-- A symbol leaves its mark. -/
theorem latestMarks_putSymbol (w : Writer) {t : Token} (ht : t.isMark = true) :
    (w.putSymbol t).latestMarks = t :: w.latestMarks := by
  rw [← latestMarks_beginLine w]
  simp [latestMarks, putSymbol, ht]

/-- A piece leaves its mark. -/
theorem latestMarks_put (w : Writer) (p : Piece) :
    (w.put p).latestMarks = p.mark?.toList ++ w.latestMarks := by
  cases p with
  | text s => exact latestMarks_putText w s
  | usage s => exact latestMarks_putSymbol w rfl
  | binding s => exact latestMarks_putSymbol w rfl
  | indent => rfl
  | unindent => rfl
  | freshLine =>
    -- The line break is text, if there is one.
    simp only [put]
    split
    · rfl
    · exact latestMarks_putText w "\n"

/-- Pieces are written one after the other. -/
theorem write_cons (w : Writer) (p : Piece) (ps : List Piece) :
    w.write (p :: ps) = (w.put p).write ps :=
  rfl

/-- Writing pieces adds their marks to a stream. -/
theorem marks_write (w : Writer) (ps : List Piece) :
    Token.marks (w.write ps).tokens = Token.marks w.tokens ++ ps.filterMap Piece.mark? := by
  induction ps generalizing w with
  | nil => simp [write]
  | cons p ps ih =>
    have hput : Token.marks (w.put p).tokens = Token.marks w.tokens ++ p.mark?.toList := by
      rw [marks_tokens, latestMarks_put, List.reverse_append, marks_tokens]
      cases p.mark? <;> rfl
    rw [write_cons, ih, hput, List.append_assoc]
    cases h : p.mark? <;> simp [h]

end Writer

/-! ## Emissions -/

namespace Output

variable {α β : Type}

/-- What is kept and changed of each item, with the fault. -/
def filterMap (f : α → Option β) (a : Output α) : Output β :=
  ⟨a.items.filterMap f, a.fault⟩

/-- The changed items, with the fault. -/
def map (f : α → β) (a : Output α) : Output β :=
  ⟨a.items.map f, a.fault⟩

/-- The marks of an emission. -/
def marks (e : Output Piece) : Output Token :=
  e.filterMap Piece.mark?

/-- Items are kept and changed one output after the other. -/
theorem filterMap_append (f : α → Option β) (a b : Output α) :
    (a ++ b).filterMap f = a.filterMap f ++ b.filterMap f := by
  obtain ⟨items, _ | fault⟩ := a
  · simp [filterMap]
  · rfl

/-- Items are changed one output after the other. -/
@[simp] theorem map_append (f : α → β) (a b : Output α) : (a ++ b).map f = a.map f ++ b.map f := by
  obtain ⟨items, _ | fault⟩ := a
  · simp [map]
  · rfl

/-- The changed items of a list. -/
@[simp] theorem map_ofList (f : α → β) (items : List α) :
    (ofList items).map f = ofList (items.map f) :=
  rfl

/-- No items have no changed items. -/
@[simp] theorem map_empty (f : α → β) : (empty : Output α).map f = empty :=
  rfl

/-- Items are changed output by output. -/
theorem map_concat (f : α → β) (as : List (Output α)) :
    (concat as).map f = concat (as.map (map f)) := by
  induction as with
  | nil => rfl
  | cons a as ih => rw [concat_cons, map_append, ih, List.map_cons, concat_cons]

/-- Lists one after the other. -/
theorem concat_map_ofList (as : List α) (f : α → List β) :
    concat (as.map fun a => ofList (f a)) = ofList (as.flatMap f) := by
  induction as with
  | nil => rfl
  | cons a as ih => rw [List.map_cons, concat_cons, ih, List.flatMap_cons, ofList_append]

/-- The marks of two emissions. -/
@[simp] theorem marks_append (a b : Output Piece) : (a ++ b).marks = a.marks ++ b.marks :=
  filterMap_append Piece.mark? a b

/-- The marks of several emissions. -/
theorem marks_concat (es : List (Output Piece)) : (concat es).marks = concat (es.map marks) := by
  induction es with
  | nil => rfl
  | cons e es ih => rw [concat_cons, marks_append, ih, List.map_cons, concat_cons]

/-- Nothing has no marks. -/
@[simp] theorem marks_empty : (empty : Output Piece).marks = empty :=
  rfl

/-- A fault has no marks. -/
@[simp] theorem marks_stop (fault : Fault) : (stop fault : Output Piece).marks = stop fault :=
  rfl

end Output

namespace Emission

/-- Text has no marks. -/
@[simp] theorem marks_text (s : String) : (text s).marks = .empty :=
  rfl

/-- Text under a condition has no marks. -/
@[simp] theorem marks_textIf (condition : Bool) (s : String) :
    (textIf condition s).marks = .empty := by
  cases condition <;> rfl

/-- An emission has its marks at every level. -/
@[simp] theorem marks_indented (e : Emission) : (indented e).marks = e.marks := by
  have hin : (Output.single Piece.indent).marks = .empty := rfl
  have hout : (Output.single Piece.unindent).marks = .empty := rfl
  rw [indented, Output.marks_append, Output.marks_append, hin, hout, Output.empty_append,
    Output.append_empty]

/-- The end of a line has no marks. -/
@[simp] theorem marks_withFreshLine (e : Emission) : (withFreshLine e).marks = e.marks := by
  have hline : (Output.single Piece.freshLine).marks = .empty := rfl
  rw [withFreshLine, Output.marks_append, hline, Output.append_empty]

/-- Separators have no marks. -/
theorem marks_separated (sep : String) (es : List Emission) :
    (separated sep es).marks = .concat (es.map Output.marks) := by
  have hafter : Output.marks ∘ (text sep ++ ·) = Output.marks := by
    funext e
    simp
  cases es with
  | nil => rfl
  | cons e es =>
    rw [separated, Output.marks_append, Output.marks_concat, List.map_map, hafter, List.map_cons,
      Output.concat_cons]

end Emission

end ModuleAssembly
