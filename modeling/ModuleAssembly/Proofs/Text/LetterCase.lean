import ModuleAssembly.Text.LetterCase

/-!
# Upper case of letters

The upper case of a lower case letter of ASCII is that of the standard library
(`Text.upper_of_isLower`), and its lower case is the letter. No character but the underscore has an
underscore in its upper case (`Text.underscore_not_mem_upper`). Both are read off the tables, row by
row.
-/

namespace ModuleAssembly.Text

/-- What holds of the lower case letters and digits of ASCII holds of all that there are. -/
theorem forall_of_isLower_or_isDigit {P : Char → Prop}
    (hall : ∀ n < 128, (Char.ofNat n).isLower = true ∨ (Char.ofNat n).isDigit = true →
      P (Char.ofNat n)) {c : Char} (h : c.isLower = true ∨ c.isDigit = true) : P c := by
  have hascii : c.toNat < 128 := by
    rcases h with hlower | hdigit
    · have hle : c.val ≤ 'z'.val := of_decide_eq_true (Bool.and_eq_true_iff.1 hlower).2
      exact Nat.lt_of_le_of_lt (UInt32.le_iff_toNat_le.1 hle) (by decide)
    · have hle : c.val ≤ '9'.val := of_decide_eq_true (Bool.and_eq_true_iff.1 hdigit).2
      exact Nat.lt_of_le_of_lt (UInt32.le_iff_toNat_le.1 hle) (by decide)
  have hc := hall c.toNat hascii
  rw [Char.ofNat_toNat] at hc
  exact hc h

/-- The upper case of a lower case letter. -/
theorem upper_of_isLower {c : Char} (h : c.isLower = true) : upper c = [c.toUpper] :=
  forall_of_isLower_or_isDigit (P := fun c => c.isLower = true → upper c = [c.toUpper])
    (by decide +kernel) (.inl h) h

/-- It is a capital, and the lower case of that is the letter. -/
theorem toUpper_of_isLower {c : Char} (h : c.isLower = true) :
    c.toUpper.isUpper = true ∧ c.toUpper.toLower = c :=
  forall_of_isLower_or_isDigit
    (P := fun c => c.isLower = true → c.toUpper.isUpper = true ∧ c.toUpper.toLower = c)
    (by decide +kernel) (.inl h) h

/-- Lower case letters and digits are neither capitals nor underscores. -/
theorem plain_of_isLower_or_isDigit {c : Char} (h : c.isLower = true ∨ c.isDigit = true) :
    c.isUpper = false ∧ c ≠ '_' :=
  forall_of_isLower_or_isDigit (P := fun c => c.isUpper = false ∧ c ≠ '_') (by decide +kernel) h

/-- The underscore has a single number. -/
theorem eq_of_ofNat_eq_underscore {n : Nat} (h : Char.ofNat n = '_') : n = 0x5F := by
  by_cases hvalid : n.isValidChar
  · have hchar : Char.ofNat n = Char.ofNatAux n hvalid := dif_pos hvalid
    exact congrArg Char.toNat (hchar.symm.trans h)
  · -- A number that no character has stands for the first character.
    have hchar : Char.ofNat n = '\x00' := dif_neg hvalid
    cases hchar.symm.trans h

/-- No run of characters moves to the underscore. -/
theorem contains_upperRuns_eq_false :
    ∀ run ∈ upperRuns, run.contains (0x5F - run.shift).toNat = false := by
  decide +kernel

/-- No replacement by several characters has an underscore. -/
theorem underscore_not_mem_upperExpansions :
    ∀ row ∈ upperExpansions, '_' ∉ row.2.map Char.ofNat := by
  decide +kernel

/-- No character but the underscore has an underscore in its upper case. -/
theorem underscore_not_mem_upper {c : Char} (hc : c ≠ '_') : '_' ∉ upper c := by
  unfold upper mapCase
  split
  · next n cs hrow => exact underscore_not_mem_upperExpansions _ (List.mem_of_find?_eq_some hrow)
  · split
    · next run hrun =>
      -- A run moves its members by one distance, so one number alone could become the underscore.
      intro hmem
      have hvalue := eq_of_ofNat_eq_underscore (List.mem_singleton.1 hmem).symm
      have hfrom : c.toNat = (0x5F - run.shift).toNat := by omega
      have hcontains := List.find?_some hrun
      rw [hfrom, contains_upperRuns_eq_false run (List.mem_of_find?_eq_some hrun)] at hcontains
      cases hcontains
    · exact fun hmem => hc (List.mem_singleton.1 hmem).symm

end ModuleAssembly.Text
