import ModuleAssembly.Proofs.Separators
import ModuleAssembly.Proofs.Stream.Rendering

/-!
# The atoms of a type

What is written for a type consists of characters and symbols, its atoms. Where no text breaks a
line, a stream of tokens says which atoms were written, and these say which tokens there are
(`Writer.tokens_write_eq_iff`). So two types are written as the same tokens exactly if they have the
same atoms, which `TypeExpr.atoms_union`, `TypeExpr.atoms_array` and `TypeExpr.atoms_generic` give
from those of their parts.
-/

namespace ModuleAssembly

/-- A character or a symbol of what is written. -/
inductive Atom where
  /-- A character. -/
  | char (c : Char)
  /-- A symbol. -/
  | symbol (s : Symbol)
deriving DecidableEq, Repr

/-- The characters of a text as atoms. -/
def Atom.ofText (s : String) : List Atom :=
  s.toList.map .char

/-- A line break. -/
def Atom.lineBreak : Atom :=
  .char '\n'

/-- The atoms of a token. -/
def Token.atoms : Token → List Atom
  | .text s => Atom.ofText s
  | .usage s | .binding s => [.symbol s]

/-- The atoms of a piece, if it is text or the use of a symbol. -/
def Piece.atoms : Piece → List Atom
  | .text s => Atom.ofText s
  | .usage s => [.symbol s]
  | .binding _ | .indent | .unindent | .freshLine => []

/-- Whether a piece is text or the use of a symbol. -/
def Piece.isInline : Piece → Bool
  | .text _ | .usage _ => true
  | .binding _ | .indent | .unindent | .freshLine => false

/-- The atoms of two texts. -/
theorem Atom.ofText_append (s t : String) : ofText (s ++ t) = ofText s ++ ofText t := by
  simp [ofText]

namespace Writer

/-- The atoms of what a writer has written. -/
def atoms (w : Writer) : List Atom :=
  w.tokens.flatMap Token.atoms

/-- Writes an atom. -/
def putAtom (w : Writer) : Atom → Writer
  | .char c => w.putChar c
  | .symbol s => w.putSymbol (.usage s)

/-- Writing pieces of text and uses of symbols is writing their atoms. -/
theorem write_eq_foldl_putAtom (w : Writer) {ps : List Piece}
    (h : ∀ p ∈ ps, p.isInline = true) : w.write ps = (ps.flatMap Piece.atoms).foldl putAtom w := by
  induction ps generalizing w with
  | nil => rfl
  | cons p ps ih =>
    have hput : w.put p = p.atoms.foldl putAtom w := by
      cases p with
      | text s =>
        have htext : w.put (.text s) = s.toList.foldl putChar w := rfl
        rw [htext, Piece.atoms, Atom.ofText, List.foldl_map]
        rfl
      | usage s => rfl
      | binding s => exact absurd (h _ List.mem_cons_self) Bool.false_ne_true
      | indent => exact absurd (h _ List.mem_cons_self) Bool.false_ne_true
      | unindent => exact absurd (h _ List.mem_cons_self) Bool.false_ne_true
      | freshLine => exact absurd (h _ List.mem_cons_self) Bool.false_ne_true
    have hrest := ih (w.put p) fun q hq => h q (List.mem_cons_of_mem p hq)
    rw [write_cons, hrest, hput, List.flatMap_cons, List.foldl_append]

/-- Text that is added adds its characters. -/
theorem atoms_append (w : Writer) (s : String) :
    (w.append s).atoms = w.atoms ++ Atom.ofText s := by
  obtain ⟨latest, unit, level, atLineStart⟩ := w
  cases latest with
  | nil => simp [atoms, tokens, append, Token.atoms]
  | cons t older =>
    cases t with
    | text u => simp [atoms, tokens, append, Token.atoms, Atom.ofText_append]
    | usage x => simp [atoms, tokens, append, Token.atoms]
    | binding x => simp [atoms, tokens, append, Token.atoms]

/-- In the middle of a line there is no line to begin. -/
theorem beginLine_of_not {w : Writer} (h : w.atLineStart = false) : w.beginLine = w := by
  simp [beginLine, h]

/-- In the middle of a line an atom that breaks no line is added as it is, and the line goes on. -/
theorem atoms_putAtom {w : Writer} (h : w.atLineStart = false) {a : Atom}
    (ha : a ≠ .lineBreak) :
    (w.putAtom a).atoms = w.atoms ++ [a] ∧ (w.putAtom a).atLineStart = false := by
  cases a with
  | char c =>
    have hc : c ≠ '\n' := fun hc => ha (congrArg Atom.char hc)
    have hput : w.putAtom (.char c) = w.append (String.singleton c) := by
      simp [putAtom, putChar, hc, beginLine_of_not h]
    rw [hput, atoms_append, atLineStart_append]
    exact ⟨by simp [Atom.ofText], h⟩
  | symbol s =>
    have hput : w.putAtom (.symbol s) = { w with latest := .usage s :: w.latest } := by
      simp [putAtom, putSymbol, beginLine_of_not h]
    rw [hput]
    exact ⟨by simp [atoms, tokens, Token.atoms], h⟩

/-- So are several. -/
theorem atoms_foldl_putAtom {w : Writer} (h : w.atLineStart = false) {as : List Atom}
    (has : .lineBreak ∉ as) : (as.foldl putAtom w).atoms = w.atoms ++ as := by
  induction as generalizing w with
  | nil => simp
  | cons a as ih =>
    obtain ⟨hatoms, hline⟩ := atoms_putAtom h (List.ne_of_not_mem_cons has).symm
    rw [List.foldl_cons, ih hline (List.not_mem_of_not_mem_cons has), hatoms, List.append_assoc,
      List.singleton_append]

/-- The first atom begins the line. -/
theorem putAtom_beginLine (w : Writer) {a : Atom} (ha : a ≠ .lineBreak) :
    w.beginLine.putAtom a = w.putAtom a := by
  have hbegun : w.beginLine.beginLine = w.beginLine := beginLine_of_not (atLineStart_beginLine w)
  cases a with
  | char c =>
    have hc : c ≠ '\n' := fun hc => ha (congrArg Atom.char hc)
    simp [putAtom, putChar, hc, hbegun]
  | symbol s => simp [putAtom, putSymbol, hbegun]

/-- Pieces on one line are written as the same tokens exactly if they have the same atoms. -/
theorem tokens_write_eq_iff (w : Writer) {ps qs : List Piece}
    (hps : ∀ p ∈ ps, p.isInline = true) (hqs : ∀ q ∈ qs, q.isInline = true)
    (hpsline : .lineBreak ∉ ps.flatMap Piece.atoms) (hqsline : .lineBreak ∉ qs.flatMap Piece.atoms)
    (hpsne : ps.flatMap Piece.atoms ≠ []) (hqsne : qs.flatMap Piece.atoms ≠ []) :
    (w.write ps).tokens = (w.write qs).tokens ↔
      ps.flatMap Piece.atoms = qs.flatMap Piece.atoms := by
  -- What has been written before, and the indentation, is the same on both sides.
  have hwritten : ∀ as : List Atom, .lineBreak ∉ as → as ≠ [] →
      (as.foldl putAtom w).atoms = w.beginLine.atoms ++ as := by
    intro as hline hne
    obtain ⟨a, rest, rfl⟩ := List.exists_cons_of_ne_nil hne
    have ha : a ≠ .lineBreak := (List.ne_of_not_mem_cons hline).symm
    have hbegin := atoms_foldl_putAtom (atLineStart_beginLine w) hline
    rwa [List.foldl_cons, putAtom_beginLine w ha] at hbegin
  rw [write_eq_foldl_putAtom w hps, write_eq_foldl_putAtom w hqs]
  constructor
  · intro h
    have hatoms := congrArg (List.flatMap Token.atoms) h
    have hbegun : w.beginLine.atoms ++ ps.flatMap Piece.atoms =
        w.beginLine.atoms ++ qs.flatMap Piece.atoms := by
      rw [← hwritten _ hpsline hpsne, ← hwritten _ hqsline hqsne]
      exact hatoms
    exact List.append_cancel_left hbegun
  · intro h
    rw [h]

end Writer

/-! ## Types -/

namespace TypeExpr

/-- What holds of a type if it holds of the types in it holds of every type. -/
theorem inductionOn {motive : TypeExpr → Prop} (t : TypeExpr)
    (symbol : ∀ s, motive (.symbol s)) (named : ∀ name, motive (.named name))
    (union : ∀ first others, motive first → (∀ t ∈ others, motive t) →
      motive (.union first others))
    (array : ∀ element, motive element → motive (.array element))
    (generic : ∀ base args, motive base → (∀ t ∈ args, motive t) → motive (.generic base args)) :
    motive t :=
  @TypeExpr.rec motive (fun ts => ∀ t ∈ ts, motive t) symbol named union array generic
    (fun _ h => absurd h List.not_mem_nil)
    (fun _ _ ht hts => List.forall_mem_cons.2 ⟨ht, hts⟩) t

/-- Types after separators, one after the other. -/
theorem piecesAfter_eq_flatMap (sep : String) (ts : List TypeExpr) :
    piecesAfter sep ts = ts.flatMap fun t => .text sep :: t.pieces false := by
  induction ts with
  | nil => rfl
  | cons t ts ih => rw [piecesAfter, ih, List.flatMap_cons]

/-- Types after separators are written as text and uses of symbols if each is. -/
theorem isInline_piecesAfter (sep : String) {ts : List TypeExpr}
    (h : ∀ t ∈ ts, ∀ p ∈ t.pieces false, p.isInline = true) :
    ∀ p ∈ piecesAfter sep ts, p.isInline = true := by
  rw [piecesAfter_eq_flatMap]
  exact List.forall_mem_flatMap.2 fun t ht => List.forall_mem_cons.2 ⟨rfl, h t ht⟩

/-- Types with commas between them are written as text and uses of symbols if each is. -/
theorem isInline_listPieces {ts : List TypeExpr}
    (h : ∀ t ∈ ts, ∀ p ∈ t.pieces false, p.isInline = true) :
    ∀ p ∈ listPieces ts, p.isInline = true := by
  cases ts with
  | nil => simp [listPieces]
  | cons t ts =>
    obtain ⟨ht, hts⟩ := List.forall_mem_cons.1 h
    exact List.forall_mem_append.2 ⟨ht, isInline_piecesAfter ", " hts⟩

/-- A type is written as text and uses of symbols. -/
theorem isInline_pieces (t : TypeExpr) (inArray : Bool) :
    ∀ p ∈ t.pieces inArray, p.isInline = true := by
  induction t using inductionOn generalizing inArray with
  | symbol s => simp [pieces, Piece.isInline]
  | named name => simp [pieces, Piece.isInline]
  | union first others hfirst hothers =>
    have hafter := isInline_piecesAfter " | " fun t ht => hothers t ht false
    have hchoices := List.forall_mem_append.2 ⟨hfirst false, hafter⟩
    simp only [pieces]
    split
    · simpa [Piece.isInline, or_imp, forall_and] using hchoices
    · exact hchoices
  | array element helement =>
    simpa [pieces, Piece.isInline, or_imp, forall_and] using helement true
  | generic base args hbase hargs =>
    have hlist := isInline_listPieces fun t ht => hargs t ht false
    simpa [pieces, Piece.isInline, or_imp, forall_and] using ⟨hbase false, hlist⟩

/-- The atoms of a type. -/
def atoms (t : TypeExpr) : List Atom :=
  (t.pieces false).flatMap Piece.atoms

/-- The atoms of types after separators. -/
theorem atoms_piecesAfter (sep : String) (ts : List TypeExpr) :
    (piecesAfter sep ts).flatMap Piece.atoms =
      (ts.map atoms).flatMap (Atom.ofText sep ++ ·) := by
  rw [piecesAfter_eq_flatMap, List.flatMap_assoc, List.flatMap_map]
  rfl

/-- A symbol is one atom. -/
theorem atoms_symbol (s : Symbol) : (TypeExpr.symbol s).atoms = [.symbol s] :=
  rfl

/-- A name has its characters. -/
theorem atoms_named (name : String) : (named name).atoms = Atom.ofText name := by
  simp [atoms, pieces, Piece.atoms]

/-- A union has the atoms of its choices with bars between them. -/
theorem atoms_union (first : TypeExpr) (others : List TypeExpr) :
    (union first others).atoms =
      (Atom.ofText " | ").intercalate ((first :: others).map atoms) := by
  have hpieces : (union first others).pieces false =
      first.pieces false ++ piecesAfter " | " others := by simp [pieces]
  rw [atoms, hpieces, List.flatMap_append, atoms_piecesAfter, List.map_cons,
    intercalate_cons_eq_flatMap]
  rfl

/-- Whether a type is written in parentheses as the element of an array. -/
def isBracketed : TypeExpr → Bool
  | .union _ others => !others.isEmpty
  | .symbol _ | .named _ | .array _ | .generic .. => false

/-- An array is written as its element, perhaps in parentheses, and brackets. -/
theorem pieces_array (e : TypeExpr) (inArray : Bool) :
    (array e).pieces inArray = (if e.isBracketed then .text "(" :: e.pieces false ++ [.text ")"]
      else e.pieces false) ++ [.text "[]"] := by
  have helement : e.pieces true = if e.isBracketed then .text "(" :: e.pieces false ++ [.text ")"]
      else e.pieces false := by
    cases e with
    | union first others =>
      cases others with
      | nil => simp [pieces, isBracketed]
      | cons o os => simp [pieces, isBracketed]
    | symbol s => rfl
    | named name => rfl
    | array element => rfl
    | generic base args => rfl
  rw [pieces, helement]

/-- An array has the atoms of its element, perhaps in parentheses, and brackets. -/
theorem atoms_array (e : TypeExpr) :
    (array e).atoms = (if e.isBracketed then Atom.ofText "(" ++ e.atoms ++ Atom.ofText ")"
      else e.atoms) ++ Atom.ofText "[]" := by
  rw [atoms, pieces_array, List.flatMap_append]
  split <;> simp [atoms, Piece.atoms]

/-- A generic type has the atoms of its base and of its arguments with commas between them. -/
theorem atoms_generic (base : TypeExpr) (args : List TypeExpr) :
    (generic base args).atoms = base.atoms ++ Atom.ofText "<" ++
      (Atom.ofText ", ").intercalate (args.map atoms) ++ Atom.ofText ">" := by
  have hargs : (listPieces args).flatMap Piece.atoms =
      (Atom.ofText ", ").intercalate (args.map atoms) := by
    cases args with
    | nil => rfl
    | cons t ts =>
      rw [listPieces, List.flatMap_append, atoms_piecesAfter, List.map_cons,
        intercalate_cons_eq_flatMap]
      rfl
  rw [atoms, pieces, List.flatMap_append, List.flatMap_append, List.flatMap_cons, hargs]
  simp [atoms, Piece.atoms]

end TypeExpr

end ModuleAssembly
