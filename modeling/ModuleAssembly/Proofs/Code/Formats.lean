import Mathlib.Data.List.Chain
import ModuleAssembly.Format

/-!
# Reading and writing formats

A format is well formed if it is made of characters that are no percent signs, of doubled percent
signs and of placeholders (`Format.IsWellFormed`). In any other format some percent sign is stray,
and what comes before the first of these is well formed (`Format.isWellFormed_or_stray`).

A well-formed format is read as parts of which no text is empty or stands next to another one
(`Format.IsNormal`) and which are written as this format (`IsWellFormed.parseFrom_eq_ok`). A stray
percent sign is reported (`IsWellFormed.parseFrom_eq_error`). Normal parts are read back from what
they are written as (`Format.parseFrom_written`). So reading and writing are inverse to each other
(`Format.parse_inverse_unparse`).
-/

namespace ModuleAssembly.Format

/-! ## Well-formed formats -/

/-- The characters that may follow a percent sign. -/
def marks : List Char :=
  ['%', 'T', 'L', 'S']

/-- Whether characters are a sequence of characters other than the percent sign and of percent signs
each with a character that may follow it. -/
inductive IsWellFormed : List Char → Prop where
  /-- No characters. -/
  | nil : IsWellFormed []
  /-- A character that is no percent sign. -/
  | plain {c : Char} {cs : List Char} (hc : c ≠ '%') (h : IsWellFormed cs) : IsWellFormed (c :: cs)
  /-- A percent sign with its mark. -/
  | marked {mark : Char} {cs : List Char} (hmark : mark ∈ marks) (h : IsWellFormed cs) :
    IsWellFormed ('%' :: mark :: cs)

/-- Whether a percent sign with some characters after it is stray in a format, and the fault that it
is. -/
inductive IsStray (format : String) : List Char → Fault → Prop where
  /-- It ends the format. -/
  | last : IsStray format [] (.danglingPercent format)
  /-- It is followed by a character that may not follow it. -/
  | unknown {mark : Char} {rest : List Char} (hmark : mark ∉ marks) :
    IsStray format (mark :: rest) (.unknownPlaceholder mark format)

/-- A character after a percent sign doubles it, makes a placeholder of it, or leaves it stray. -/
theorem mark_cases (mark : Char) :
    mark = '%' ∨
      (∃ part, placeholder? mark = some part ∧ part.isPlaceholder = true ∧
        part.written = ['%', mark] ∧ mark ∈ marks) ∨
      (mark ≠ '%' ∧ placeholder? mark = none ∧ mark ∉ marks) := by
  by_cases hdouble : mark = '%'
  · exact .inl hdouble
  · unfold placeholder?
    split
    · exact .inr (.inl ⟨.type, rfl, rfl, rfl, by decide⟩)
    · exact .inr (.inl ⟨.literal, rfl, rfl, rfl, by decide⟩)
    · exact .inr (.inl ⟨.string, rfl, rfl, rfl, by decide⟩)
    · next htype hliteral hstring =>
      refine .inr (.inr ⟨hdouble, rfl, ?_⟩)
      rintro (_ | ⟨_, _ | ⟨_, _ | ⟨_, _ | ⟨_, ⟨⟩⟩⟩⟩⟩)
      · exact hdouble rfl
      · exact htype rfl
      · exact hliteral rfl
      · exact hstring rfl

/-- Characters are well formed, or there is a first stray percent sign. -/
theorem isWellFormed_or_stray (format : String) (cs : List Char) :
    IsWellFormed cs ∨ ∃ before after fault,
      cs = before ++ '%' :: after ∧ IsWellFormed before ∧ IsStray format after fault := by
  match cs with
  | [] => exact .inl .nil
  | c :: rest =>
    by_cases hc : c = '%'
    · subst hc
      match rest with
      | [] => exact .inr ⟨[], [], _, rfl, .nil, .last⟩
      | mark :: rest =>
        by_cases hmark : mark ∈ marks
        · rcases isWellFormed_or_stray format rest with
            hrest | ⟨before, after, fault, rfl, hbefore, hstray⟩
          · exact .inl (.marked hmark hrest)
          · exact .inr ⟨'%' :: mark :: before, after, fault, rfl, .marked hmark hbefore, hstray⟩
        · exact .inr ⟨[], mark :: rest, _, rfl, .nil, .unknown hmark⟩
    · rcases isWellFormed_or_stray format rest with
        hrest | ⟨before, after, fault, rfl, hbefore, hstray⟩
      · exact .inl (.plain hc hrest)
      · exact .inr ⟨c :: before, after, fault, rfl, .plain hc hbefore, hstray⟩

/-! ## Steps of the reader -/

section Steps

variable (format : String) (read : List Char)

/-- A character that is no percent sign is text. -/
theorem parseFrom_plain {c : Char} (hc : c ≠ '%') (cs : List Char) :
    parseFrom format read (c :: cs) = parseFrom format (c :: read) cs := by
  rw [parseFrom]
  · rintro rfl
    exact absurd rfl hc
  · rintro mark rest rfl
    exact absurd rfl hc

/-- A doubled percent sign is text. -/
theorem parseFrom_double (cs : List Char) :
    parseFrom format read ('%' :: '%' :: cs) = parseFrom format ('%' :: read) cs := by
  rw [parseFrom, if_pos rfl]

/-- A placeholder ends the text before it and is a part of its own. -/
theorem parseFrom_placeholder {mark : Char} {part : Part} (h : placeholder? mark = some part)
    (cs : List Char) :
    parseFrom format read ('%' :: mark :: cs) =
      (parseFrom format [] cs).map fun parts => textThen read.reverse (part :: parts) := by
  have hmark : mark ≠ '%' := by
    rintro rfl
    cases h
  rw [parseFrom, if_neg hmark, h]

/-- A stray percent sign is a fault. -/
theorem parseFrom_stray {after : List Char} {fault : Fault} (h : IsStray format after fault) :
    parseFrom format read ('%' :: after) = .error fault := by
  cases h with
  | last => rfl
  | @unknown mark rest hmark =>
    rcases mark_cases mark with rfl | ⟨_, _, _, _, hknown⟩ | ⟨hdouble, hnone, -⟩
    · exact absurd (by decide) hmark
    · exact absurd hknown hmark
    · rw [parseFrom, if_neg hdouble, hnone]

end Steps

/-! ## Parts in normal form -/

/-- Whether no text among some parts is empty or stands next to another one. -/
structure IsNormal (parts : List Part) : Prop where
  /-- No text is empty. -/
  notEmpty : .text "" ∉ parts
  /-- Of two parts next to each other one is a placeholder. -/
  apart : parts.IsChain fun a b => a.isPlaceholder = true ∨ b.isPlaceholder = true

/-- No parts are normal. -/
theorem isNormal_nil : IsNormal [] :=
  ⟨List.not_mem_nil, .nil⟩

/-- The parts after the first are normal. -/
theorem IsNormal.tail {part : Part} {parts : List Part} (h : IsNormal (part :: parts)) :
    IsNormal parts :=
  ⟨fun hmem => h.notEmpty (List.mem_cons_of_mem part hmem), h.apart.tail⟩

/-- After a text there is a placeholder, if anything. -/
theorem IsNormal.head_tail {s : String} {parts : List Part} (h : IsNormal (.text s :: parts)) :
    ∀ part ∈ parts.head?, part.isPlaceholder = true := by
  intro part hpart
  rcases (List.isChain_cons.1 h.apart).1 part hpart with htext | hplaceholder
  · cases htext
  · exact hplaceholder

/-- In front of normal parts a placeholder may stand. -/
theorem IsNormal.cons {part : Part} {parts : List Part} (h : IsNormal parts)
    (hpart : part.isPlaceholder = true) : IsNormal (part :: parts) := by
  refine ⟨?_, List.isChain_cons.2 ⟨fun _ _ => .inl hpart, h.apart⟩⟩
  rintro (_ | ⟨_, hmem⟩)
  · cases hpart
  · exact h.notEmpty hmem

/-- So may text in front of a placeholder, or of nothing. -/
theorem IsNormal.textThen {parts : List Part} (h : IsNormal parts)
    (hhead : ∀ part ∈ parts.head?, part.isPlaceholder = true) (text : List Char) :
    IsNormal (textThen text parts) := by
  unfold Format.textThen
  split
  · exact h
  · next hsome =>
    refine ⟨?_, List.isChain_cons.2 ⟨fun part hpart => .inr (hhead part hpart), h.apart⟩⟩
    intro hmem
    rcases List.mem_cons.1 hmem with htext | hrest
    · have hempty : "".toList = text := by rw [Part.text.inj htext, String.toList_ofList]
      exact hsome (by rw [← hempty]; rfl)
    · exact h.notEmpty hrest

/-- Text and the parts after it are written one after the other. -/
theorem written_textThen (text : List Char) (parts : List Part) :
    (textThen text parts).flatMap Part.written = doubled text ++ parts.flatMap Part.written := by
  cases text with
  | nil => rfl
  | cons c cs => simp [textThen, Part.written]

/-- Text is doubled one after the other. -/
theorem doubled_append (cs ds : List Char) : doubled (cs ++ ds) = doubled cs ++ doubled ds :=
  List.flatMap_append

/-! ## Reading what is well formed -/

/-- Well-formed characters are read as normal parts, which are written as what was read. -/
theorem IsWellFormed.parseFrom_eq_ok {cs : List Char} (h : IsWellFormed cs) (format : String)
    (read : List Char) : ∃ parts, parseFrom format read cs = .ok parts ∧ IsNormal parts ∧
      parts.flatMap Part.written = doubled read.reverse ++ cs := by
  induction h generalizing read with
  | nil => exact ⟨_, rfl, isNormal_nil.textThen (by simp) _, written_textThen _ _⟩
  | @plain c cs hc _ ih =>
    obtain ⟨parts, hparts, hnormal, hwritten⟩ := ih (c :: read)
    refine ⟨parts, by rw [parseFrom_plain format read hc, hparts], hnormal, ?_⟩
    rw [hwritten, List.reverse_cons, doubled_append, List.append_assoc]
    simp [doubled, hc]
  | @marked mark cs hmark _ ih =>
    rcases mark_cases mark with rfl | ⟨part, hpart, hplaceholder, hmarked, -⟩ | ⟨-, -, hstray⟩
    · obtain ⟨parts, hparts, hnormal, hwritten⟩ := ih ('%' :: read)
      refine ⟨parts, by rw [parseFrom_double, hparts], hnormal, ?_⟩
      rw [hwritten, List.reverse_cons, doubled_append, List.append_assoc]
      rfl
    · obtain ⟨parts, hparts, hnormal, hwritten⟩ := ih []
      refine ⟨textThen read.reverse (part :: parts), ?_, ?_, ?_⟩
      · rw [parseFrom_placeholder format read hpart, hparts]
        rfl
      · refine (hnormal.cons hplaceholder).textThen (fun first hfirst => ?_) _
        rwa [← Option.some.inj hfirst]
      · rw [written_textThen, List.flatMap_cons, hmarked, hwritten]
        rfl
    · exact absurd hmark hstray

/-- A stray percent sign after well-formed characters is reported. -/
theorem IsWellFormed.parseFrom_eq_error {before after : List Char} {format : String} {fault : Fault}
    (h : IsWellFormed before) (hstray : IsStray format after fault) (read : List Char) :
    parseFrom format read (before ++ '%' :: after) = .error fault := by
  induction h generalizing read with
  | nil => exact parseFrom_stray format read hstray
  | @plain c cs hc _ ih => rw [List.cons_append, parseFrom_plain format read hc, ih]
  | @marked mark cs hmark _ ih =>
    rw [List.cons_append, List.cons_append]
    rcases mark_cases mark with rfl | ⟨part, hpart, -⟩ | ⟨-, -, hunknown⟩
    · rw [parseFrom_double, ih]
    · rw [parseFrom_placeholder format read hpart, ih]
      rfl
    · exact absurd hmark hunknown

/-! ## Reading what was written -/

/-- A placeholder is written as a percent sign and the character that makes one of it. -/
theorem exists_mark_of_isPlaceholder {part : Part} (h : part.isPlaceholder = true) :
    ∃ mark, part.written = ['%', mark] ∧ placeholder? mark = some part := by
  cases part with
  | text s => cases h
  | type => exact ⟨'T', rfl, rfl⟩
  | literal => exact ⟨'L', rfl, rfl⟩
  | string => exact ⟨'S', rfl, rfl⟩

/-- Doubled text is read as the text. -/
theorem parseFrom_doubled (format : String) (read text cs : List Char) :
    parseFrom format read (doubled text ++ cs) = parseFrom format (text.reverse ++ read) cs := by
  induction text generalizing read with
  | nil => rfl
  | cons c text ih =>
    have hcons : doubled (c :: text) = doubled [c] ++ doubled text := doubled_append [c] text
    rw [hcons, List.append_assoc, List.reverse_cons, List.append_assoc]
    by_cases hc : c = '%'
    · subst hc
      exact (parseFrom_double format read _).trans (ih _)
    · have hplain : doubled [c] = [c] := by simp [doubled, hc]
      rw [hplain]
      exact (parseFrom_plain format read hc _).trans (ih _)

/-- Normal parts are read back after text that was read before, unless they start with text
themselves. -/
theorem parseFrom_written (format : String) {parts : List Part} (h : IsNormal parts)
    (read : List Char) (hread : read ≠ [] → ∀ part ∈ parts.head?, part.isPlaceholder = true) :
    parseFrom format read (parts.flatMap Part.written) = .ok (textThen read.reverse parts) := by
  induction parts generalizing read with
  | nil => rfl
  | cons part parts ih =>
    rw [List.flatMap_cons]
    by_cases hpart : part.isPlaceholder = true
    · obtain ⟨mark, hwritten, hmark⟩ := exists_mark_of_isPlaceholder hpart
      rw [hwritten]
      change parseFrom format read ('%' :: mark :: parts.flatMap Part.written) = _
      rw [parseFrom_placeholder format read hmark, ih h.tail [] (absurd rfl)]
      rfl
    · cases part with
      | text s =>
        have hnone : read = [] := by
          by_contra hsome
          exact hpart (hread hsome _ rfl)
        have hs : s.toList ≠ [] := by
          intro hs
          rw [String.toList_eq_nil_iff.1 hs] at h
          exact h.notEmpty List.mem_cons_self
        -- The text is read to its end, where a placeholder follows or nothing does.
        have hrest := ih h.tail s.toList.reverse fun _ => h.head_tail
        rw [Part.written, parseFrom_doubled, hnone, List.append_nil, hrest, List.reverse_reverse,
          textThen, if_neg (by simpa using hs), String.ofList_toList]
        rfl
      | type | literal | string => exact absurd rfl hpart

/-! ## Formats as a whole -/

/-- A format is read exactly if it is well formed, and otherwise the first stray percent sign is
reported. What is read is in normal form and is written as the format, and parts in normal form are
read back from what they are written as. -/
theorem parse_inverse_unparse :
    (∀ s, (∃ parts, parse s = .ok parts) ↔ IsWellFormed s.toList) ∧
      (∀ s fault, parse s = .error fault ↔ ∃ before after,
        s.toList = before ++ '%' :: after ∧ IsWellFormed before ∧ IsStray s after fault) ∧
      (∀ s parts, parse s = .ok parts → IsNormal parts ∧ unparse parts = s) ∧
      ∀ parts, IsNormal parts → parse (unparse parts) = .ok parts := by
  have hok : ∀ s : String, IsWellFormed s.toList →
      ∃ parts, parse s = .ok parts ∧ IsNormal parts ∧ unparse parts = s := by
    intro s h
    obtain ⟨parts, hparts, hnormal, hwritten⟩ := h.parseFrom_eq_ok s []
    refine ⟨parts, hparts, hnormal, ?_⟩
    rw [unparse, hwritten]
    exact String.ofList_toList
  have herror : ∀ (s : String) (before after : List Char) (fault : Fault),
      s.toList = before ++ '%' :: after → IsWellFormed before → IsStray s after fault →
        parse s = .error fault := by
    intro s before after fault hs hbefore hstray
    rw [parse, hs, hbefore.parseFrom_eq_error hstray]
  have hread : ∀ s parts, parse s = .ok parts → IsWellFormed s.toList := by
    intro s parts hparts
    rcases isWellFormed_or_stray s s.toList with h | ⟨before, after, fault, hs, hbefore, hstray⟩
    · exact h
    · rw [herror s before after fault hs hbefore hstray] at hparts
      cases hparts
  refine ⟨fun s => ⟨fun ⟨parts, hparts⟩ => hread s parts hparts, fun h => ?_⟩,
    fun s fault => ⟨fun hfault => ?_, ?_⟩, fun s parts hparts => ?_, fun parts h => ?_⟩
  · obtain ⟨parts, hparts, -⟩ := hok s h
    exact ⟨parts, hparts⟩
  · rcases isWellFormed_or_stray s s.toList with h | ⟨before, after, first, hs, hbefore, hstray⟩
    · obtain ⟨parts, hparts, -⟩ := hok s h
      rw [hparts] at hfault
      cases hfault
    · rw [herror s before after first hs hbefore hstray] at hfault
      cases hfault
      exact ⟨before, after, hs, hbefore, hstray⟩
  · rintro ⟨before, after, hs, hbefore, hstray⟩
    exact herror s before after fault hs hbefore hstray
  · obtain ⟨read, hs, hnormal, hwritten⟩ := hok s (hread s parts hparts)
    rw [hs] at hparts
    cases hparts
    exact ⟨hnormal, hwritten⟩
  · rw [parse, unparse, String.toList_ofList]
    exact parseFrom_written _ h [] (absurd rfl)

/-- A format in which a doubled percent sign stands in the text before two placeholders, and one in
which another percent sign follows a doubled one. -/
theorem parse_inverse_unparse_of_doubled :
    let parts := [Part.text "100% of ", .type, .literal]
    IsNormal parts ∧ unparse parts = "100%% of %T%L" ∧ parse "100%% of %T%L" = .ok parts ∧
      parse "a%%%" = .error (.danglingPercent "a%%%") := by
  intro parts
  have hnormal : IsNormal parts := ⟨by decide, by decide⟩
  have hwritten : unparse parts = "100%% of %T%L" := by decide +kernel
  have hread := parse_inverse_unparse.2.2.2 parts hnormal
  rw [hwritten] at hread
  have hstray := (parse_inverse_unparse.2.1 "a%%%" (.danglingPercent "a%%%")).2
    ⟨['a', '%', '%'], [], by decide, .plain (by decide) (.marked (by decide) .nil), .last⟩
  exact ⟨hnormal, hwritten, hread, hstray⟩

end ModuleAssembly.Format
