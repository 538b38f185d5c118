import Mathlib.Data.List.TakeWhile
import ModuleAssembly.Text.Literal

/-!
# Reading string literals

Code is read in units from left to right: a backslash with the character after it, or any other
character by itself (`LiteralUnit.ofChars`). The body of a literal consists of the units that its
text is written as, one for each character, whatever follows it (`LiteralUnit.ofChars_literalBody`),
and none of them is a quote by itself. So the quote that ends a literal is the first one that is
met, and the units before it stand for the text (`quote_decodable`).

A literal that the language allows has no line feed and no carriage return in it (`IsLiteral`). No
literal has a line feed, but it has the carriage returns of its text: it is allowed exactly if
there are none (`isLiteral_quote_iff`).
-/

namespace ModuleAssembly.Text

/-! ## Units -/

/-- What is read at once in a string literal. -/
inductive LiteralUnit where
  /-- A character by itself. -/
  | plain (c : Char)
  /-- A backslash with the character after it. -/
  | escape (mark : Char)
deriving DecidableEq, Repr

/-- The characters that follow a backslash in a literal. -/
def escapeMarks : List Char :=
  ['\\', '\'', 'n']

namespace LiteralUnit

/-- The units of code, from left to right. A backslash that ends the code is a unit by itself. -/
def ofChars : List Char → List LiteralUnit
  | [] => []
  | '\\' :: mark :: cs => .escape mark :: ofChars cs
  | c :: cs => .plain c :: ofChars cs

/-- The character that a unit stands for. -/
def value : LiteralUnit → Char
  | .plain c => c
  | .escape mark => if mark = 'n' then '\n' else mark

/-- The text of a literal, read from the code after its opening quote: the units up to the first
quote by itself. -/
def readText (cs : List Char) : String :=
  String.ofList (((ofChars cs).takeWhile (· ≠ .plain '\'')).map value)

/-- The unit that a character of a text is written as. -/
def ofChar (c : Char) : LiteralUnit :=
  if c = '\\' then .escape '\\'
  else if c = '\'' then .escape '\''
  else if c = '\n' then .escape 'n'
  else .plain c

/-- A character is written as a backslash with a mark, or as itself if it is none of the three that
are not. -/
theorem ofChar_cases (c : Char) :
    (∃ mark ∈ escapeMarks, ofChar c = .escape mark ∧ literalChar c = ['\\', mark]) ∨
      (c ∉ ['\\', '\'', '\n'] ∧ ofChar c = .plain c ∧ literalChar c = [c]) := by
  unfold ofChar literalChar
  by_cases hslash : c = '\\'
  · exact .inl ⟨'\\', by decide, by simp [hslash], by simp [hslash]⟩
  by_cases hquote : c = '\''
  · exact .inl ⟨'\'', by decide, by simp [hquote], by simp [hquote]⟩
  by_cases hbreak : c = '\n'
  · exact .inl ⟨'n', by decide, by simp [hbreak], by simp [hbreak]⟩
  · refine .inr ⟨?_, ?_, ?_⟩
    · simp [hslash, hquote, hbreak]
    · simp [hslash, hquote, hbreak]
    · simp [hslash, hquote, hbreak]

/-- A backslash takes the character after it. -/
theorem ofChars_escape (mark : Char) (cs : List Char) :
    ofChars ('\\' :: mark :: cs) = .escape mark :: ofChars cs :=
  rfl

/-- Any other character is a unit by itself. -/
theorem ofChars_plain {c : Char} (hc : c ≠ '\\') (cs : List Char) :
    ofChars (c :: cs) = .plain c :: ofChars cs := by
  rw [ofChars]
  rintro mark rest rfl
  exact absurd rfl hc

/-- What a character is written as is one unit, whatever follows it. -/
theorem ofChars_literalChar (c : Char) (cs : List Char) :
    ofChars (literalChar c ++ cs) = ofChar c :: ofChars cs := by
  rcases ofChar_cases c with ⟨mark, -, hunit, hwritten⟩ | ⟨hc, hunit, hwritten⟩
  · rw [hunit, hwritten]
    exact ofChars_escape mark cs
  · rw [hunit, hwritten]
    refine ofChars_plain ?_ cs
    rintro rfl
    exact absurd (by decide) hc

/-- The body of a literal has a unit for each character of its text, whatever follows it. -/
theorem ofChars_literalBody (text cs : List Char) :
    ofChars (literalBody text ++ cs) = text.map ofChar ++ ofChars cs := by
  induction text with
  | nil => rfl
  | cons c text ih =>
    have hcons : literalBody (c :: text) ++ cs = literalChar c ++ (literalBody text ++ cs) :=
      List.append_assoc _ _ _
    rw [hcons, ofChars_literalChar, ih]
    rfl

/-- The unit that a character is written as stands for the character. -/
theorem value_ofChar (c : Char) : (ofChar c).value = c := by
  unfold ofChar
  split
  · next hc => exact hc.symm
  split
  · next hc => exact hc.symm
  split
  · next hc => exact hc.symm
  · rfl

/-- The units of a written text: an escape has one of the three marks, and no character that needs
an escape is by itself. -/
theorem mem_map_ofChar {u : LiteralUnit} {text : List Char} (hu : u ∈ text.map ofChar) :
    (∃ mark ∈ escapeMarks, u = .escape mark) ∨
      ∃ c ∈ text, c ∉ ['\\', '\'', '\n'] ∧ u = .plain c := by
  obtain ⟨c, hmem, rfl⟩ := List.mem_map.1 hu
  rcases ofChar_cases c with ⟨mark, hmark, hunit, -⟩ | ⟨hc, hunit, -⟩
  · exact .inl ⟨mark, hmark, hunit⟩
  · exact .inr ⟨c, hmem, hc, hunit⟩

/-- A character that needs an escape is not by itself in a written text. -/
theorem plain_notMem_map_ofChar {c : Char} (hc : c ∈ ['\\', '\'', '\n']) (text : List Char) :
    .plain c ∉ text.map ofChar := by
  intro hmem
  rcases mem_map_ofChar hmem with ⟨mark, -, hunit⟩ | ⟨d, -, hd, hunit⟩
  · cases hunit
  · cases hunit
    exact hd hc

/-- The units of a written text stand for its characters. -/
theorem map_value_map_ofChar (text : List Char) : (text.map ofChar).map value = text := by
  rw [List.map_map]
  exact List.map_id'' value_ofChar text

/-- Code that begins with the body of a literal and a quote is read as the text of the literal. -/
theorem readText_literalBody (s : String) (rest : List Char) :
    readText (literalBody s.toList ++ '\'' :: rest) = s := by
  have hunits : ofChars (literalBody s.toList ++ '\'' :: rest) =
      s.toList.map ofChar ++ .plain '\'' :: ofChars rest := by
    rw [ofChars_literalBody, ofChars_plain (by decide)]
  have hpass : ∀ u ∈ s.toList.map ofChar, decide (u ≠ .plain '\'') = true := by
    intro u hu
    refine decide_eq_true ?_
    rintro rfl
    exact plain_notMem_map_ofChar (by decide) s.toList hu
  rw [readText, hunits, List.takeWhile_append_of_pos hpass, List.takeWhile_cons_of_neg (by simp),
    List.append_nil, map_value_map_ofChar, String.ofList_toList]

end LiteralUnit

/-! ## Literals -/

/-- The characters of a literal. -/
theorem toList_quote (s : String) : (quote s).toList = '\'' :: literalBody s.toList ++ ['\''] :=
  String.toList_ofList

/-- A text with a text in place of each occurrence of a character. -/
def replaced (c : Char) (new : List Char) (cs : List Char) : List Char :=
  cs.flatMap fun d => if d = c then new else [d]

/-- The body of a literal is what is left after three replacements. The backslashes come first, so
that those of the other two are not doubled. -/
theorem literalBody_eq_replaced (cs : List Char) :
    literalBody cs =
      replaced '\n' ['\\', 'n'] (replaced '\'' ['\\', '\''] (replaced '\\' ['\\', '\\'] cs)) := by
  unfold literalBody replaced
  rw [List.flatMap_assoc, List.flatMap_assoc]
  -- What is left is the same for each character by itself.
  congr 1
  funext c
  unfold literalChar
  by_cases hslash : c = '\\'
  · simp [hslash]
  by_cases hquote : c = '\''
  · simp [hquote]
  by_cases hbreak : c = '\n'
  · simp [hbreak]
  · simp [hslash, hquote, hbreak]

open LiteralUnit in
/-- A literal, which is made by three replacements, can be read. After its opening quote come units
that stand for the characters of its text: none of them is a quote or a backslash by itself, and a
backslash is followed by a backslash, a quote or the letter n. Then comes the quote that ends it,
whatever follows. So what begins with a literal begins with no other, and two texts have two
literals. -/
theorem quote_decodable :
    (∀ s : String, (quote s).toList = '\'' :: replaced '\n' ['\\', 'n']
      (replaced '\'' ['\\', '\''] (replaced '\\' ['\\', '\\'] s.toList)) ++ ['\'']) ∧
    (∀ (s : String) (rest : List Char), ∃ body units,
      (quote s).toList = '\'' :: body ++ ['\''] ∧
        ofChars (body ++ '\'' :: rest) = units ++ .plain '\'' :: ofChars rest ∧
        .plain '\'' ∉ units ∧ .plain '\\' ∉ units ∧
        (∀ mark, .escape mark ∈ units → mark ∈ escapeMarks) ∧
        units.map value = s.toList) ∧
    (∀ (s t : String) (rest other : List Char),
      (quote s).toList ++ rest = (quote t).toList ++ other → s = t ∧ rest = other) ∧
    Function.Injective quote := by
  have hbegin : ∀ (s t : String) (rest other : List Char),
      (quote s).toList ++ rest = (quote t).toList ++ other → s = t ∧ rest = other := by
    intro s t rest other h
    have hbody : literalBody s.toList ++ '\'' :: rest = literalBody t.toList ++ '\'' :: other := by
      simpa [toList_quote] using h
    -- The text is read back from either, since what comes after the quote is not read.
    have htext : s = t := by
      rw [← readText_literalBody s rest, hbody, readText_literalBody]
    subst htext
    exact ⟨rfl, List.append_cancel_left h⟩
  refine ⟨fun s => ?_, fun s rest => ?_, hbegin, fun s t h => ?_⟩
  · rw [toList_quote, literalBody_eq_replaced]
  · refine ⟨literalBody s.toList, s.toList.map ofChar, toList_quote s, ?_, ?_, ?_, ?_, ?_⟩
    · rw [ofChars_literalBody, ofChars_plain (by decide)]
    · exact plain_notMem_map_ofChar (by decide) s.toList
    · exact plain_notMem_map_ofChar (by decide) s.toList
    · intro mark hmem
      rcases mem_map_ofChar hmem with ⟨mark', hmark, hunit⟩ | ⟨c, -, -, hunit⟩
      · cases hunit
        exact hmark
      · cases hunit
    · exact map_value_map_ofChar s.toList
  · exact (hbegin s t [] [] (by rw [h])).1

/-- A literal of a text with each of the three characters, followed by more code. -/
theorem quote_decodable_of_three : quote "C:\\new's\n" = "'C:\\\\new\\'s\\n'" ∧
    ∀ (t : String) (other : List Char),
      (quote "C:\\new's\n").toList ++ [';'] = (quote t).toList ++ other →
        "C:\\new's\n" = t ∧ [';'] = other :=
  ⟨rfl, fun t other => quote_decodable.2.2.1 "C:\\new's\n" t [';'] other⟩

/-! ## Allowed literals -/

/-- The marks of the escapes with one character after the backslash. -/
def singleMarks : List Char :=
  ['\'', '"', '\\', 'b', 'f', 'n', 'r', 't', 'v']

/-- A unit that the language allows in a literal in single quotes. -/
def LiteralUnit.IsAllowed : LiteralUnit → Prop
  | .plain c => c ∉ ['\'', '\\', '\n', '\r']
  | .escape mark => mark ∈ singleMarks

/-- Code that is one literal: units that the language allows, between quotes. -/
def IsLiteral (code : String) : Prop :=
  ∃ body, code.toList = '\'' :: body ++ ['\''] ∧ ∀ u ∈ LiteralUnit.ofChars body, u.IsAllowed

/-- What is written for a character has no other character in it than the escape marks and the
character itself, and a line feed is not written as itself. -/
theorem mem_literalChar {c d : Char} (hc : c ∉ escapeMarks) :
    c ∈ literalChar d ↔ d = c ∧ c ≠ '\n' := by
  obtain ⟨hslash, hquote, hn⟩ : c ≠ '\\' ∧ c ≠ '\'' ∧ c ≠ 'n' := by simpa [escapeMarks] using hc
  unfold literalChar
  split
  · next hd => simp [hd, hslash, hslash.symm]
  split
  · next hd => simp [hd, hslash, hquote, hquote.symm]
  split
  · next hd => simp [hd, hslash, hn, eq_comm]
  · next hd => grind

/-- A character other than the escape marks is in a literal if it is in the text and is no line
feed. -/
theorem mem_quote {c : Char} (hc : c ∉ escapeMarks) (s : String) :
    c ∈ (quote s).toList ↔ c ∈ s.toList ∧ c ≠ '\n' := by
  have hquote : c ≠ '\'' := by
    rintro rfl
    exact absurd (by decide) hc
  rw [toList_quote, List.mem_append, List.mem_cons, List.mem_singleton, literalBody,
    List.mem_flatMap]
  simp only [mem_literalChar hc, hquote, false_or, or_false]
  constructor
  · rintro ⟨d, hd, rfl, hne⟩
    exact ⟨hd, hne⟩
  · rintro ⟨hmem, hne⟩
    exact ⟨c, hmem, rfl, hne⟩

/-- A literal is on one line of those that end in a line feed. -/
theorem lineFeed_notMem_quote (s : String) : '\n' ∉ (quote s).toList := fun h =>
  ((mem_quote (by decide) s).1 h).2 rfl

/-- A literal has the carriage returns of its text. -/
theorem carriageReturn_mem_quote (s : String) : '\r' ∈ (quote s).toList ↔ '\r' ∈ s.toList := by
  rw [mem_quote (by decide)]
  exact and_iff_left (by decide)

/-- The literal of a text is allowed if the text has no carriage return, and only then. -/
theorem isLiteral_quote_iff (s : String) : IsLiteral (quote s) ↔ '\r' ∉ s.toList := by
  have hunits : LiteralUnit.ofChars (literalBody s.toList) = s.toList.map LiteralUnit.ofChar := by
    simpa [LiteralUnit.ofChars] using LiteralUnit.ofChars_literalBody s.toList []
  constructor
  · rintro ⟨body, hbody, hallowed⟩ hmem
    obtain rfl : literalBody s.toList = body := by
      simpa [toList_quote] using hbody
    have hunit : LiteralUnit.plain '\r' ∈ LiteralUnit.ofChars (literalBody s.toList) := by
      rw [hunits]
      exact List.mem_map.2 ⟨'\r', hmem, rfl⟩
    exact hallowed _ hunit (by decide)
  · intro hfree
    refine ⟨literalBody s.toList, toList_quote s, fun u hu => ?_⟩
    rw [hunits] at hu
    rcases LiteralUnit.mem_map_ofChar hu with ⟨mark, hmark, rfl⟩ | ⟨c, hmem, hc, rfl⟩
    · have hsub : ∀ m ∈ escapeMarks, m ∈ singleMarks := by simp [escapeMarks, singleMarks]
      exact hsub mark hmark
    · have hne : c ≠ '\r' := by
        rintro rfl
        exact hfree hmem
      simp only [List.mem_cons, List.not_mem_nil, or_false, not_or] at hc
      simpa [LiteralUnit.IsAllowed, hne] using ⟨hc.2.1, hc.1, hc.2.2⟩

end ModuleAssembly.Text
