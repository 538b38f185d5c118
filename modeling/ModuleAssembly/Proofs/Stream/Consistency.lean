import Mathlib.Data.List.Chain
import ModuleAssembly.Proofs.Stream.Indentation

/-!
# What a writer knows of its tokens

A writer keeps two things about its tokens. No text stands next to another, since text is added to a
text that comes last; and the writer is at the start of a line exactly if it has no tokens yet or
the last one is a text with a line break at its end (`Writer.Consistent`). Whatever is written keeps
both (`Writer.Consistent.write`). So the text of a writer that is at the start of a line consists of
whole lines (`Writer.Consistent.isWholeLines`).
-/

namespace ModuleAssembly

/-! ## Texts and line breaks -/

namespace Token

/-- Whether a token may stand next to another: one of them is no text. -/
def Apart (t u : Token) : Prop :=
  t.isMark = true ∨ u.isMark = true

/-- Whether tokens end in a line break: the last one is a text that ends in one. -/
def EndInBreak (tokens : List Token) : Prop :=
  ∃ s, tokens.getLast? = some (.text (s ++ "\n"))

end Token

namespace Writer

/-- What a writer knows of its tokens. -/
structure Consistent (w : Writer) : Prop where
  /-- No two texts stand next to each other. -/
  apart : w.tokens.IsChain Token.Apart
  /-- A line starts where nothing is written yet, and after a line break. -/
  atLineStart_iff : w.atLineStart = true ↔ w.tokens = [] ∨ Token.EndInBreak w.tokens

/-- The latest tokens of a writer stand apart. -/
def LatestApart (w : Writer) : Prop :=
  w.latest.IsChain Token.Apart

/-- The tokens stand apart exactly if the latest ones do, which are the same the other way round. -/
theorem isChain_tokens_iff (w : Writer) : w.tokens.IsChain Token.Apart ↔ w.LatestApart := by
  have hflip : (fun t u => Token.Apart u t) = Token.Apart := by
    funext t u
    exact propext or_comm
  rw [tokens, List.isChain_reverse, hflip]
  rfl

/-- The last token is the latest one. -/
theorem endInBreak_tokens_iff (w : Writer) :
    Token.EndInBreak w.tokens ↔ ∃ s, w.latest.head? = some (.text (s ++ "\n")) := by
  rw [Token.EndInBreak, tokens, List.getLast?_reverse]

namespace LatestApart

variable {w : Writer}

/-- Text that is added stands apart: it becomes part of a text before it. -/
theorem append (h : w.LatestApart) (s : String) : (w.append s).LatestApart := by
  obtain ⟨t, older, hlatest, hadd⟩ | ⟨hmark, hadd⟩ := w.latest_append_cases s
  · -- The longer text has the neighbour of the shorter one.
    rw [LatestApart, hlatest, List.isChain_cons] at h
    rw [LatestApart, hadd, List.isChain_cons]
    exact h
  · rw [LatestApart, hadd, List.isChain_cons]
    exact ⟨fun m hm => .inr (hmark m hm), h⟩

/-- The start of a line keeps the tokens apart. -/
theorem beginLine (h : w.LatestApart) : w.beginLine.LatestApart :=
  beginLine_preserves (P := Writer.LatestApart) (fun _ s hv => append hv s) (fun _ _ hv => hv) h

/-- A symbol may stand next to every token. -/
theorem putSymbol (h : w.LatestApart) {t : Token} (ht : t.isMark = true) :
    (w.putSymbol t).LatestApart :=
  List.isChain_cons.2 ⟨fun _ _ => .inl ht, h.beginLine⟩

/-- A text keeps the tokens apart. -/
theorem putText (h : w.LatestApart) (s : String) : (w.putText s).LatestApart :=
  putText_preserves (P := Writer.LatestApart) (fun _ s hv => append hv s) (fun _ _ hv => hv) h s

end LatestApart

/-- Text that is added ends the latest token. -/
theorem exists_head?_append (w : Writer) (s : String) :
    ∃ t, (w.append s).latest.head? = some (.text (t ++ s)) := by
  obtain ⟨t, older, -, hadd⟩ | ⟨-, hadd⟩ := w.latest_append_cases s
  · exact ⟨t, by rw [hadd, List.head?_cons]⟩
  · exact ⟨"", by rw [hadd, List.head?_cons, String.empty_append]⟩

/-- A character ends the latest token. -/
theorem exists_head?_putChar (w : Writer) (c : Char) :
    ∃ t, (w.putChar c).latest.head? = some (.text (t ++ String.singleton c)) := by
  unfold putChar
  split
  · next hc =>
    rw [hc]
    exact exists_head?_append w "\n"
  · exact exists_head?_append w.beginLine _

/-- Whether a writer is at the start of a line exactly where its tokens say so. -/
def KnowsStart (w : Writer) : Prop :=
  w.atLineStart = true ↔ w.latest = [] ∨ ∃ s, w.latest.head? = some (.text (s ++ "\n"))

/-- After a character a writer knows whether a line starts, whatever it knew before. -/
theorem knowsStart_putChar (w : Writer) (c : Char) : (w.putChar c).KnowsStart := by
  obtain ⟨t, ht⟩ := exists_head?_putChar w c
  have hnil : (w.putChar c).latest ≠ [] := by
    intro hlatest
    rw [hlatest] at ht
    cases ht
  have hbreak : (∃ s, t ++ String.singleton c = s ++ "\n") ↔ c = '\n' := by
    constructor
    · rintro ⟨s, hs⟩
      have hchars := congrArg (fun s => s.toList.getLast?) hs
      simpa using hchars
    · rintro rfl
      exact ⟨t, rfl⟩
  simp only [KnowsStart, atLineStart_putChar, ht, hnil, false_or, beq_iff_eq, Option.some.injEq,
    Token.text.injEq, hbreak]

/-- A text leaves a writer that knows whether a line starts. -/
theorem KnowsStart.putText {w : Writer} (h : w.KnowsStart) (s : String) :
    (w.putText s).KnowsStart := by
  unfold Writer.putText
  induction s.toList generalizing w with
  | nil => exact h
  | cons c cs ih => exact ih (knowsStart_putChar w c)

/-- After a symbol no line starts. -/
theorem knowsStart_putSymbol (w : Writer) {t : Token} (ht : t.isMark = true) :
    (w.putSymbol t).KnowsStart := by
  have hline : (w.putSymbol t).atLineStart = false := atLineStart_beginLine w
  have hlatest : (w.putSymbol t).latest = t :: w.beginLine.latest := rfl
  rw [KnowsStart, hline, hlatest]
  cases t with
  | text s => cases ht
  | usage x | binding x => simp

namespace Consistent

/-- What a writer knows may be said of its latest tokens. -/
theorem iff_latest (w : Writer) : w.Consistent ↔ w.LatestApart ∧ w.KnowsStart := by
  have hnil : w.tokens = [] ↔ w.latest = [] := List.reverse_eq_nil_iff
  constructor
  · rintro ⟨hapart, hline⟩
    rw [hnil, endInBreak_tokens_iff] at hline
    exact ⟨w.isChain_tokens_iff.1 hapart, hline⟩
  · rintro ⟨hapart, hline⟩
    refine ⟨w.isChain_tokens_iff.2 hapart, ?_⟩
    rw [hnil, endInBreak_tokens_iff]
    exact hline

/-- A new writer has no tokens and is at the start of a line. -/
theorem new (unit : String) : Consistent { unit } :=
  (iff_latest _).2 ⟨.nil, by simp [KnowsStart]⟩

variable {w : Writer}

/-- A text keeps what a writer knows. -/
theorem putText (h : w.Consistent) (s : String) : (w.putText s).Consistent := by
  obtain ⟨hapart, hline⟩ := (iff_latest w).1 h
  exact (iff_latest _).2 ⟨hapart.putText s, hline.putText s⟩

/-- A symbol keeps what a writer knows. -/
theorem putSymbol (h : w.Consistent) {t : Token} (ht : t.isMark = true) :
    (w.putSymbol t).Consistent :=
  (iff_latest _).2 ⟨((iff_latest w).1 h).1.putSymbol ht, knowsStart_putSymbol w ht⟩

/-- A piece keeps what a writer knows. -/
theorem put (h : w.Consistent) (p : Piece) : (w.put p).Consistent := by
  cases p with
  | text s => exact h.putText s
  | usage x => exact h.putSymbol rfl
  | binding x => exact h.putSymbol rfl
  | indent => exact ⟨h.apart, h.atLineStart_iff⟩
  | unindent => exact ⟨h.apart, h.atLineStart_iff⟩
  | freshLine =>
    simp only [Writer.put]
    split
    · exact h
    · exact h.putText "\n"

/-- Pieces keep what a writer knows. -/
theorem write (h : w.Consistent) (ps : List Piece) : (w.write ps).Consistent := by
  unfold Writer.write
  induction ps generalizing w with
  | nil => exact h
  | cons p ps ih => exact ih (h.put p)

/-- At the start of a line a writer has written whole lines. -/
theorem isWholeLines (h : w.Consistent) (hline : w.atLineStart = true) (table : RenameTable) :
    Text.IsWholeLines (w.rendered table) := by
  rcases h.atLineStart_iff.1 hline with hnone | ⟨s, hlast⟩
  · rw [rendered, hnone]
    exact .inl rfl
  · obtain ⟨older, htokens⟩ := List.getLast?_eq_some_iff.1 hlast
    rw [rendered, htokens, Token.render_append, Token.render_singleton]
    exact .inr ⟨Token.render table older ++ s, (String.append_assoc ..).symm⟩

end Consistent

end Writer

end ModuleAssembly
