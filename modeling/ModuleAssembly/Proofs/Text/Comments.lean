import Mathlib.Data.List.Chain
import Mathlib.Data.List.DropRight
import ModuleAssembly.Text.Comment

/-!
# Text in comments

A block comment ends at the first star with a slash after it. Text without that pair keeps the
comment open (`KeepsOpen`). Scrubbed text does (`keepsOpen_scrubChars`), and so do its parts; where
texts meet, only a star before a slash could form the pair. So the comment of a documentation text
keeps open up to its last slash (`exists_docComment_eq`).

A line comment ends with its line. Each line of a header text becomes one
(`isLineComment_headerRows`), since the lines of a text have no line break in them.
-/

namespace ModuleAssembly.Text

/-! ## Block comments -/

/-- Whether a block comment is still open after a text: nothing in the text closes it. -/
def KeepsOpen (cs : List Char) : Prop :=
  ¬['*', '/'] <:+: cs

/-- A comment stays open if no star has a slash after it. -/
theorem keepsOpen_iff_isChain {cs : List Char} :
    KeepsOpen cs ↔ cs.IsChain fun a b => ¬(a = '*' ∧ b = '/') := by
  rw [List.isChain_iff_forall_rel_of_append_cons_cons]
  constructor
  · rintro h a b before after hcs ⟨rfl, rfl⟩
    exact h ⟨before, after, by rw [hcs]; simp⟩
  · rintro h ⟨before, after, rfl⟩
    have hpair : before ++ ['*', '/'] ++ after = before ++ '*' :: '/' :: after := by simp
    exact h hpair ⟨rfl, rfl⟩

/-- One more character in front closes nothing unless it is a star before a slash. -/
theorem keepsOpen_cons_iff {c : Char} {cs : List Char} :
    KeepsOpen (c :: cs) ↔ (c ≠ '*' ∨ cs.head? ≠ some '/') ∧ KeepsOpen cs := by
  rw [keepsOpen_iff_isChain, keepsOpen_iff_isChain, List.isChain_cons]
  refine and_congr_left fun _ => ?_
  constructor
  · intro h
    by_cases hc : c = '*'
    · exact .inr fun hhead => h '/' hhead ⟨hc, rfl⟩
    · exact .inl hc
  · rintro (hc | hhead) b hb ⟨hstar, rfl⟩
    · exact hc hstar
    · exact hhead hb

/-- Without a star nothing closes a comment. -/
theorem keepsOpen_of_notMem {cs : List Char} (h : '*' ∉ cs) : KeepsOpen cs := fun hclose =>
  h (hclose.subset List.mem_cons_self)

namespace KeepsOpen

variable {cs ds : List Char}

/-- A part of a text closes nothing if the text does not. -/
theorem isInfix (h : KeepsOpen cs) (hds : ds <:+: cs) : KeepsOpen ds := fun hclose =>
  h (hclose.trans hds)

/-- Two texts close nothing together unless a star meets a slash. -/
theorem append (hcs : KeepsOpen cs) (hds : KeepsOpen ds)
    (hseam : cs.getLast? ≠ some '*' ∨ ds.head? ≠ some '/') : KeepsOpen (cs ++ ds) := by
  rw [keepsOpen_iff_isChain] at hcs hds ⊢
  refine List.isChain_append.2 ⟨hcs, hds, ?_⟩
  rintro a ha b hb ⟨rfl, rfl⟩
  rcases hseam with hlast | hhead
  · exact hlast ha
  · exact hhead hb

/-- A text without a star in front closes nothing. -/
theorem append_of_notMem (hcs : '*' ∉ cs) (hds : KeepsOpen ds) : KeepsOpen (cs ++ ds) :=
  append (keepsOpen_of_notMem hcs) hds (.inl fun hlast => hcs (List.mem_of_getLast? hlast))

/-- A line break at the end closes nothing. -/
theorem append_newline (hcs : KeepsOpen cs) : KeepsOpen (cs ++ ['\n']) :=
  hcs.append (keepsOpen_of_notMem (by decide)) (.inr (by decide))

/-- Lines close nothing together if none does by itself. -/
theorem flatMap_newline {rows : List (List Char)} (h : ∀ row ∈ rows, KeepsOpen row)
    (hds : KeepsOpen ds) : KeepsOpen (rows.flatMap (· ++ ['\n']) ++ ds) := by
  induction rows with
  | nil => exact hds
  | cons row rows ih =>
    have hrow := (h row List.mem_cons_self).append_newline
    have hrest := ih fun other hother => h other (List.mem_cons_of_mem row hother)
    rw [List.flatMap_cons, List.append_assoc (row ++ ['\n'])]
    exact hrow.append hrest (.inl (by simp))

end KeepsOpen

/-! ## Parts of a text -/

/-- Scrubbed text begins as the text does. -/
theorem head?_scrubChars (cs : List Char) : (scrubChars cs).head? = cs.head? := by
  fun_cases scrubChars cs with
  | case1 rest => rfl
  | case2 c rest _ => rfl
  | case3 => rfl

/-- Scrubbed text closes no comment. -/
theorem keepsOpen_scrubChars (cs : List Char) : KeepsOpen (scrubChars cs) := by
  fun_induction scrubChars cs with
  | case1 rest ih =>
    have hslash : KeepsOpen ('/' :: scrubChars rest) :=
      keepsOpen_cons_iff.2 ⟨.inl (by decide), ih⟩
    have hspace : KeepsOpen (' ' :: '/' :: scrubChars rest) :=
      keepsOpen_cons_iff.2 ⟨.inl (by decide), hslash⟩
    exact keepsOpen_cons_iff.2 ⟨.inr (by simp), hspace⟩
  | case2 c rest hpair ih =>
    refine keepsOpen_cons_iff.2 ⟨?_, ih⟩
    rw [head?_scrubChars]
    by_contra! hclose
    obtain ⟨tail, rfl⟩ := List.head?_eq_some_iff.1 hclose.2
    exact hpair tail hclose.1 rfl
  | case3 => exact keepsOpen_of_notMem List.not_mem_nil

/-- What is left when the end is dropped is the beginning. -/
theorem dropEndWhile_prefix_self (p : Char → Bool) (cs : List Char) : dropEndWhile p cs <+: cs :=
  List.rdropWhile_prefix p cs

/-- What is left when both ends are dropped is a part. -/
theorem dropAroundWhile_infix_self (p : Char → Bool) (cs : List Char) :
    dropAroundWhile p cs <:+: cs :=
  (dropEndWhile_prefix_self p _).isInfix.trans (List.dropWhile_suffix p).isInfix

/-- What ends in a character that is not dropped stays at the beginning of a text. -/
theorem prefix_dropEndWhile {p : Char → Bool} {c : Char} (hc : ¬p c) (cs ds : List Char) :
    cs ++ [c] <+: dropEndWhile p (cs ++ [c] ++ ds) := by
  induction ds using List.reverseRecOn with
  | nil =>
    have hall : dropEndWhile p (cs ++ [c]) = cs ++ [c] := List.rdropWhile_concat_neg p cs c hc
    simp [hall]
  | append_singleton ds d ih =>
    by_cases hd : p d
    · have hlast : dropEndWhile p (cs ++ [c] ++ ds ++ [d]) = dropEndWhile p (cs ++ [c] ++ ds) :=
        List.rdropWhile_concat_pos p _ d hd
      rw [← List.append_assoc, hlast]
      exact ih
    · have hall : dropEndWhile p (cs ++ [c] ++ ds ++ [d]) = cs ++ [c] ++ ds ++ [d] :=
        List.rdropWhile_concat_neg p _ d hd
      rw [← List.append_assoc, hall, List.append_assoc (cs ++ [c])]
      exact List.prefix_append _ _

/-- A line is a part of what the lines are cut from. -/
theorem infix_of_mem_linesFrom {current cs line : List Char} (h : line ∈ linesFrom current cs) :
    line <:+: current.reverse ++ cs := by
  -- The cases: nothing is left, the last line is left, a pair ends the line, another line break
  -- ends it, and a character goes on with it.
  fun_induction linesFrom current cs with
  | case1 current _ => cases h
  | case2 current _ =>
    simp [List.mem_singleton.1 h]
  | case3 current rest ih =>
    rcases List.mem_cons.1 h with rfl | hrest
    · exact (List.prefix_append _ _).isInfix
    · exact (ih hrest).trans ⟨current.reverse ++ ['\r', '\n'], [], by simp⟩
  | case4 current c rest _ _ ih =>
    rcases List.mem_cons.1 h with rfl | hrest
    · exact (List.prefix_append _ _).isInfix
    · exact (ih hrest).trans ⟨current.reverse ++ [c], [], by simp⟩
  | case5 current c rest _ _ ih =>
    have hwhole : (c :: current).reverse ++ rest = current.reverse ++ c :: rest := by simp
    exact hwhole ▸ ih h

/-- No line has a line break in it. -/
theorem isLineBreak_of_mem_linesFrom {current cs line : List Char}
    (h : line ∈ linesFrom current cs) (hcurrent : ∀ c ∈ current, isLineBreak c = false) :
    ∀ c ∈ line, isLineBreak c = false := by
  fun_induction linesFrom current cs with
  | case1 current _ => cases h
  | case2 current _ =>
    rw [List.mem_singleton.1 h]
    simpa using hcurrent
  | case3 current rest ih =>
    rcases List.mem_cons.1 h with rfl | hrest
    · simpa using hcurrent
    · exact ih hrest (by simp)
  | case4 current c rest _ _ ih =>
    rcases List.mem_cons.1 h with rfl | hrest
    · simpa using hcurrent
    · exact ih hrest (by simp)
  | case5 current c rest _ hc ih =>
    exact ih h (List.forall_mem_cons.2 ⟨Bool.eq_false_iff.2 hc, hcurrent⟩)

/-- Text has a line. -/
theorem linesFrom_ne_nil {current cs : List Char} (h : current ≠ [] ∨ cs ≠ []) :
    linesFrom current cs ≠ [] := by
  fun_induction linesFrom current cs with
  | case1 current hempty => simp_all
  | case2 current _ => exact List.cons_ne_nil _ _
  | case3 current rest _ => exact List.cons_ne_nil _ _
  | case4 current c rest _ _ _ => exact List.cons_ne_nil _ _
  | case5 current c rest _ _ ih => exact ih (.inl (List.cons_ne_nil c current))

/-- Each line of a documentation text closes no comment. -/
theorem keepsOpen_of_mem_docLines {doc line : String} (h : line ∈ docLines doc) :
    KeepsOpen line.toList := by
  unfold docLines lines at h
  obtain ⟨cs, hcs, rfl⟩ := List.mem_map.1 h
  have hscrubbed : KeepsOpen (scrub doc).toList := by
    rw [scrub, String.toList_ofList]
    exact keepsOpen_scrubChars doc.toList
  have htrimmed : (trim (scrub doc)).toList <:+: (scrub doc).toList := by
    rw [trim, String.toList_ofList]
    exact dropAroundWhile_infix_self isBlank _
  have hpart : cs <:+: (trim (scrub doc)).toList := by
    simpa only [List.reverse_nil, List.nil_append] using infix_of_mem_linesFrom hcs
  rw [String.toList_ofList]
  exact hscrubbed.isInfix (hpart.trans htrimmed)

/-- The row of a block comment for a line of text. -/
def docRow (line : String) : String :=
  trimEnd (" * " ++ line)

/-- A row closes no comment if its line does not. -/
theorem keepsOpen_docRow {line : String} (h : KeepsOpen line.toList) :
    KeepsOpen (docRow line).toList := by
  rw [docRow, trimEnd, String.toList_ofList, String.toList_append]
  have hstar : KeepsOpen " * ".toList := by
    rw [keepsOpen_iff_isChain]
    decide
  exact (hstar.append h (.inl (by decide))).isInfix (dropEndWhile_prefix_self _ _).isInfix

/-- The opening mark of a block comment closes nothing with what follows, unless a slash does. -/
theorem KeepsOpen.opened {inside : List Char} (h : KeepsOpen (inside ++ ['*']))
    (hhead : inside.head? ≠ some '/') : KeepsOpen (['/', '*', '*'] ++ inside ++ ['*']) := by
  have hmark : KeepsOpen ['/', '*', '*'] := by
    rw [keepsOpen_iff_isChain]
    decide
  rw [List.append_assoc]
  refine hmark.append h (.inr ?_)
  cases inside with
  | nil => decide
  | cons c inside => exact hhead

/-- The comment of a documentation text opens, and keeps open up to the slash at its end. -/
theorem exists_docComment_eq {doc : String} (h : doc ≠ "") : ∃ inside,
    (docComment doc).toList = ['/', '*', '*'] ++ inside ++ ['*', '/', '\n'] ∧
      KeepsOpen (['/', '*', '*'] ++ inside ++ ['*']) := by
  have hlines : ∀ line ∈ docLines doc, KeepsOpen line.toList :=
    fun line hline => keepsOpen_of_mem_docLines hline
  have hspace : KeepsOpen [' '] := keepsOpen_of_notMem (by decide)
  have hend : KeepsOpen ([' '] ++ ['*']) := by
    rw [keepsOpen_iff_isChain]
    decide
  rw [docComment, if_neg (by simpa using h)]
  split
  · next line hline =>
    -- The only line stands between spaces.
    have hopen : KeepsOpen (([' '] ++ line.toList) ++ ([' '] ++ ['*'])) :=
      (hspace.append (hlines line (by simp [hline])) (.inl (by decide))).append hend
        (.inr (by decide))
    refine ⟨[' '] ++ line.toList ++ [' '], by simp, KeepsOpen.opened ?_ (by simp)⟩
    rwa [List.append_assoc]
  · -- Each of the rows has a line break, and the last mark comes after a space.
    obtain ⟨rows, hrows, htext⟩ : ∃ rows : List (List Char), (∀ row ∈ rows, KeepsOpen row) ∧
        (String.join ((docLines doc).map fun line => docRow line ++ "\n")).toList =
          rows.flatMap (· ++ ['\n']) := by
      refine ⟨(docLines doc).map fun line => (docRow line).toList, fun row hrow => ?_, ?_⟩
      · obtain ⟨line, hline, rfl⟩ := List.mem_map.1 hrow
        exact keepsOpen_docRow (hlines line hline)
      · simp [String.toList_join, List.flatMap_map]
    have hopen : KeepsOpen (['\n'] ++ (rows.flatMap (· ++ ['\n']) ++ ([' '] ++ ['*']))) :=
      (KeepsOpen.flatMap_newline hrows hend).append_of_notMem (by decide)
    refine ⟨['\n'] ++ (rows.flatMap (· ++ ['\n']) ++ [' ']), ?_, KeepsOpen.opened ?_ (by simp)⟩
    · simp only [docRow] at htext
      simp [htext]
    · simpa only [List.append_assoc] using hopen

/-! ## Line comments -/

/-- The characters that end a line of code. -/
def lineTerminators : List Char :=
  ['\n', '\r', '\u2028', '\u2029']

/-- A line comment: two slashes, with nothing after them that ends the line. -/
structure IsLineComment (row : String) : Prop where
  /-- It begins with two slashes. -/
  slashes : ∃ text, row = "//" ++ text
  /-- It is on one line. -/
  notMem : ∀ c ∈ lineTerminators, c ∉ row.toList

/-- The rows of a header comment. -/
def headerRows (comment : String) : List String :=
  (lines comment).map fun line => trimEnd ("// " ++ line)

/-- A header comment is its rows, each with a line break. -/
theorem headerComment_eq_join (comment : String) :
    headerComment comment = String.join ((headerRows comment).map (· ++ "\n")) := by
  rw [headerComment, headerRows, List.map_map]
  rfl

/-- The rows of a header comment are line comments. -/
theorem isLineComment_headerRows {comment row : String} (h : row ∈ headerRows comment) :
    IsLineComment row := by
  obtain ⟨line, hline, rfl⟩ := List.mem_map.1 h
  obtain ⟨cs, hcs, rfl⟩ := List.mem_map.1 hline
  have hrow : (trimEnd ("// " ++ String.ofList cs)).toList =
      dropEndWhile isBlank (['/'] ++ ['/'] ++ (' ' :: cs)) := by
    have hfront : ("// " ++ String.ofList cs).toList = ['/'] ++ ['/'] ++ (' ' :: cs) := by simp
    rw [trimEnd, String.toList_ofList, hfront]
  constructor
  · have hslash : ¬isBlank '/' := by decide
    obtain ⟨rest, hrest⟩ := prefix_dropEndWhile hslash ['/'] (' ' :: cs)
    refine ⟨String.ofList rest, String.toList_injective ?_⟩
    rw [hrow, ← hrest]
    simp
  · intro c hc hmem
    have hbreak : ∀ c ∈ lineTerminators, isLineBreak c = true := by
      simp [lineTerminators, isLineBreak]
    have hfree : ∀ c ∈ ['/'] ++ ['/'] ++ (' ' :: cs), isLineBreak c = false := by
      have hline := isLineBreak_of_mem_linesFrom hcs (by simp)
      simpa using ⟨by decide, by decide, hline⟩
    rw [hrow] at hmem
    have hnone := hfree c ((dropEndWhile_prefix_self _ _).subset hmem)
    rw [hbreak c hc] at hnone
    cases hnone

/-- A header text that is not empty has rows. -/
theorem headerRows_ne_nil {comment : String} (h : comment ≠ "") : headerRows comment ≠ [] := by
  have hchars : comment.toList ≠ [] := by simpa using h
  simpa [headerRows, lines] using linesFrom_ne_nil (.inr hchars)

end ModuleAssembly.Text
