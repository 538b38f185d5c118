import Mathlib.Algebra.Order.Group.Nat
import ModuleAssembly.Proofs.Code.References

/-!
# Arguments that cannot be printed

An argument of a code block at a place that is not a type, and an integer that is the value of a
constant, are printed. Two kinds of them have no text (`Argument.HasNoText`): an integer of more
digits than are written, and a type that is nested too deep. A block prints its arguments in order,
a declaration what its constants and its blocks print, and a file what its declarations and then
its free blocks do. The fault of several printed arguments is that of the first without a text
(`Fault.ofPrinted`).
-/

namespace ModuleAssembly

/-! ## Texts of arguments -/

/-- An integer has no text exactly if it has more digits than are written. -/
theorem Text.ofInteger?_eq_none_iff {n : Int} :
    ofInteger? n = none ↔ 10 ^ longestInteger ≤ n.natAbs := by
  have hdigits : (Nat.toDigits 10 n.natAbs).length ≤ longestInteger ↔
      n.natAbs < 10 ^ longestInteger :=
    Nat.length_toDigits_le_iff (by decide) (by decide)
  rw [← Nat.not_lt, ← hdigits]
  simp [ofInteger?]

/-- An argument has no text, for a fault. -/
inductive Argument.HasNoText : Argument → Fault → Prop where
  /-- An integer has too many digits. -/
  | int (n : Int) (h : 10 ^ Text.longestInteger ≤ n.natAbs) : HasNoText (.int n) .integerTooLong
  /-- A type is nested too deep. -/
  | type (t : TypeExpr) (h : TypeExpr.callLimit < t.callDepth) : HasNoText (.type t) .typeTooDeep

namespace Argument

/-- A type has a text unless it is nested too deep. -/
theorem described_type_eq_error_iff {t : TypeExpr} {fault : Fault} :
    t.described = .error fault ↔ TypeExpr.callLimit < t.callDepth ∧ fault = .typeTooDeep := by
  unfold TypeExpr.described
  by_cases hdeep : TypeExpr.callLimit < t.callDepth
  · simp [hdeep, eq_comm]
  · cases t <;> simp [hdeep]

/-- An argument is printed unless it has no text. -/
theorem described_eq_error_iff {a : Argument} {fault : Fault} :
    a.described = .error fault ↔ a.HasNoText fault := by
  constructor
  · intro h
    cases a with
    | type t =>
      obtain ⟨hdeep, rfl⟩ := described_type_eq_error_iff.1 h
      exact .type t hdeep
    | int n =>
      rw [described] at h
      cases htext : Text.ofInteger? n with
      | none =>
        rw [htext] at h
        cases h
        exact .int n (Text.ofInteger?_eq_none_iff.1 htext)
      | some s =>
        rw [htext] at h
        cases h
    | text _ | float _ | bool _ => cases h
  · rintro (⟨n, hlong⟩ | ⟨t, hdeep⟩)
    · rw [described, Text.ofInteger?_eq_none_iff.2 hlong]
      rfl
    · exact described_type_eq_error_iff.2 ⟨hdeep, rfl⟩

/-- Why an argument cannot be printed, if it cannot. -/
def fault? (a : Argument) : Option Fault :=
  match a.described with
  | .ok _ => none
  | .error fault => some fault

/-- That is why it has no text. -/
theorem fault?_eq_some_iff {a : Argument} {fault : Fault} :
    a.fault? = some fault ↔ a.HasNoText fault := by
  rw [← described_eq_error_iff, fault?]
  cases a.described <;> simp

end Argument

/-- The fault of printing arguments: that of the first without a text. -/
def Fault.ofPrinted (args : List Argument) : Option Fault :=
  args.findSome? Argument.fault?

namespace Fault

/-- Without arguments there is no fault. -/
@[simp] theorem ofPrinted_nil : ofPrinted [] = none :=
  rfl

/-- The fault of two lists of arguments is that of the first, or else that of the second. -/
theorem ofPrinted_append (args more : List Argument) :
    ofPrinted (args ++ more) = (ofPrinted args).or (ofPrinted more) :=
  List.findSome?_append

/-- Arguments have no fault exactly if each has a text. -/
theorem ofPrinted_eq_none_iff {args : List Argument} :
    ofPrinted args = none ↔ ∀ a ∈ args, ∀ fault, ¬a.HasNoText fault := by
  simp only [ofPrinted, List.findSome?_eq_none_iff, ← Argument.fault?_eq_some_iff,
    ← Option.eq_none_iff_forall_ne_some]

end Fault

namespace Emission

/-- Printing an argument has the fault of the argument. -/
theorem fault_printed_described (a : Argument) : (printed a.described).fault = a.fault? := by
  unfold Argument.fault?
  cases a.described with
  | ok s => rfl
  | error fault => rfl

/-- So has printing it with its text changed. -/
theorem fault_printed_map (a : Argument) (f : String → String) :
    (printed (a.described.map f)).fault = a.fault? := by
  rw [← fault_printed_described]
  cases a.described with
  | ok s => rfl
  | error fault => rfl

/-- So has printing it as a literal. -/
theorem fault_printed_literal (a : Argument) : (printed a.literal).fault = a.fault? := by
  cases a with
  | bool b => rfl
  | type t => exact fault_printed_described (.type t)
  | text s => rfl
  | int n => exact fault_printed_described (.int n)
  | float x => rfl

end Emission

/-! ## What is printed -/

/-- The argument that a segment prints, if it prints one. -/
def Segment.printed : Segment → List Argument
  | .literal a | .string a => [a]
  | .text _ | .type _ => []

/-- The arguments that a code block prints. -/
def CodeBlock.printed (b : CodeBlock) : List Argument :=
  b.segments.items.flatMap Segment.printed

/-- The integer that a constant prints, if it prints one. -/
def Constant.printed (c : Constant) : List Argument :=
  match c.value with
  | some (.int n) => [.int n]
  | some (.text _) | none => []

/-- The code blocks that are written for a declaration: all of its blocks but the bodies of the
methods of an interface. -/
def Declaration.printedBlocks : Declaration → List CodeBlock
  | .interface d => d.properties.flatMap Property.blocks
  | d => d.blocks

/-- What a declaration prints: the values of its constants, and what its blocks print. -/
def Declaration.printed (d : Declaration) : List Argument :=
  match d with
  | .enumeration e => e.constants.flatMap Constant.printed
  | _ => d.printedBlocks.flatMap CodeBlock.printed

/-- What a file prints. -/
def FileModel.printed (f : FileModel) : List Argument :=
  f.declarations.flatMap Declaration.printed ++ f.codeBlocks.flatMap CodeBlock.printed

end ModuleAssembly
