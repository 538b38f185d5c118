import Mathlib.Data.List.TakeWhile
import ModuleAssembly.Collect
import ModuleAssembly.Proofs.Stream.Marks

/-!
# References in code blocks

A code block that satisfies `CodeBlock.check` can still not be read to the end in one case: a text
at the place of a type writes a symbol without a name or without a module (`Symbol.IsBadSpec`),
which no check looks at. Then its symbols end in a fault that names the first such text
(`CodeBlock.fault_segments`). The symbols of a declaration end in a fault exactly if those of one of
its blocks do, and in the fault of the first (`Declaration.fault_symbols`), because all its types
can be read.
-/

namespace ModuleAssembly

/-! ## Short forms of types -/

/-- A text that should be `Name@module` but has nothing before its first `@`, or nothing after
it. -/
def Symbol.IsBadSpec (s : String) : Prop :=
  ∃ name module, s = name ++ "@" ++ module ∧ '@' ∉ name.toList ∧ (name = "" ∨ module = "")

namespace Symbol

/-- A text is cut at its first `@`. -/
theorem splitAtSign_eq_some_iff {cs name module : List Char} :
    splitAtSign cs = some (name, module) ↔ cs = name ++ '@' :: module ∧ '@' ∉ name := by
  unfold splitAtSign
  constructor
  · intro h
    cases hrest : cs.dropWhile (· != '@') with
    | nil => simp [hrest] at h
    | cons c rest =>
      simp only [hrest, Option.some.injEq, Prod.mk.injEq] at h
      obtain ⟨rfl, rfl⟩ := h
      -- What is left begins with the first character that is an `@`.
      have hc : c = '@' := by
        have hhead := List.head_dropWhile_not (· != '@') (l := cs) (by simp [hrest])
        simpa [hrest] using hhead
      have hsplit := List.takeWhile_append_dropWhile (p := (· != '@')) (l := cs)
      rw [hrest, hc] at hsplit
      refine ⟨hsplit.symm, fun hmem => ?_⟩
      simpa using List.mem_takeWhile_imp hmem
  · rintro ⟨rfl, hname⟩
    have hpass : ∀ c ∈ name, (c != '@') = true := by
      intro c hc
      simpa using ne_of_mem_of_not_mem hc hname
    rw [List.dropWhile_append_of_pos hpass, List.takeWhile_append_of_pos hpass]
    simp

/-- A text without an `@` is not cut. -/
theorem splitAtSign_eq_none_iff {cs : List Char} : splitAtSign cs = none ↔ '@' ∉ cs := by
  have hnil : cs.dropWhile (· != '@') = [] ↔ '@' ∉ cs := by
    rw [List.dropWhile_eq_nil_iff]
    constructor
    · intro h hmem
      simpa using h _ hmem
    · intro h c hc
      simpa using ne_of_mem_of_not_mem hc h
  rw [← hnil]
  unfold splitAtSign
  cases cs.dropWhile (· != '@') with
  | nil => simp
  | cons c rest => simp

/-- A text is a bad reference exactly if it is cut at an `@` and one part is empty. -/
theorem isBadSpec_iff {s : String} : IsBadSpec s ↔ ∃ name module,
    splitAtSign s.toList = some (name, module) ∧ (name = [] ∨ module = []) := by
  constructor
  · rintro ⟨name, module, rfl, hname, hempty⟩
    refine ⟨name.toList, module.toList, splitAtSign_eq_some_iff.2 ⟨by simp, hname⟩, ?_⟩
    simpa using hempty
  · rintro ⟨name, module, hsplit, hempty⟩
    obtain ⟨hs, hname⟩ := splitAtSign_eq_some_iff.1 hsplit
    refine ⟨String.ofList name, String.ofList module, ?_, by simpa using hname, ?_⟩
    · rw [← String.ofList_toList (s := s), hs, String.append_assoc]
      simp
    · simpa using hempty

end Symbol

/-- A text is no short form of a type exactly if it is a bad reference. -/
theorem TypeExpr.ofShorthand?_eq_none_iff {s : String} :
    ofShorthand? s = none ↔ Symbol.IsBadSpec s := by
  rw [Symbol.isBadSpec_iff]
  unfold ofShorthand? Symbol.parse?
  cases hsplit : Symbol.splitAtSign s.toList with
  | none => simp [Symbol.splitAtSign_eq_none_iff.1 hsplit]
  | some parts =>
    obtain ⟨name, module⟩ := parts
    have hmem : '@' ∈ s.toList := by
      rw [(Symbol.splitAtSign_eq_some_iff.1 hsplit).1]
      simp
    constructor
    · intro h
      refine ⟨name, module, rfl, ?_⟩
      by_contra hne
      simp [hmem, not_or.1 hne] at h
    · rintro ⟨name', module', heq, hempty⟩
      cases heq
      rcases hempty with rfl | rfl
      · simp [hmem]
      · simp [hmem]

/-! ## Faults of outputs -/

/-- The fault of reading texts as types: it names the first that is no short form of one. -/
def Fault.ofTypeTexts (texts : List String) : Option Fault :=
  (texts.find? fun s => (TypeExpr.ofShorthand? s).isNone).map .badReference

namespace Fault

/-- Without texts there is no fault. -/
@[simp] theorem ofTypeTexts_nil : ofTypeTexts [] = none :=
  rfl

/-- The fault of two lists of texts is that of the first, or else that of the second. -/
theorem ofTypeTexts_append (texts more : List String) :
    ofTypeTexts (texts ++ more) = (ofTypeTexts texts).or (ofTypeTexts more) := by
  unfold ofTypeTexts
  rw [List.find?_append]
  cases texts.find? fun s => (TypeExpr.ofShorthand? s).isNone with
  | none => rfl
  | some s => rfl

end Fault

namespace Output

variable {α β : Type}

/-- The fault of two outputs is that of the first, or else that of the second. -/
theorem fault_append (a b : Output α) : (a ++ b).fault = a.fault.or b.fault := by
  obtain ⟨items, _ | fault⟩ := a
  · rfl
  · rfl

/-- If the fault of each of several outputs is that of some texts, then the fault of all is that of
all the texts. -/
theorem fault_concat_map {f : α → Output β} {texts : α → List String} (xs : List α)
    (h : ∀ x ∈ xs, (f x).fault = Fault.ofTypeTexts (texts x)) :
    (concat (xs.map f)).fault = Fault.ofTypeTexts (xs.flatMap texts) := by
  induction xs with
  | nil => rfl
  | cons x xs ih =>
    have hrest := ih fun y hy => h y (List.mem_cons_of_mem x hy)
    rw [List.map_cons, concat_cons, fault_append, h x List.mem_cons_self, hrest,
      List.flatMap_cons, Fault.ofTypeTexts_append]

/-- What lists the items produce has the fault of the items. -/
theorem fault_flatMap_ofList (a : Output α) (f : α → List β) :
    (a.flatMap fun x => .ofList (f x)).fault = a.fault := by
  rw [flatMap, concat_map_ofList]
  rfl

end Output

/-! ## Code blocks -/

namespace Segment

/-- The text that a placeholder with its argument takes for a type, if there is one. -/
def typeTexts : Format.Part × Argument → List String
  | (.type, .text s) => [s]
  | _ => []

/-- What stands for a type has the fault of its text, if it is one. -/
theorem fault_ofTypeArgument {a : Argument} (h : a.isTypeLike = true) :
    (ofTypeArgument a).fault = Fault.ofTypeTexts (typeTexts (.type, a)) := by
  cases a with
  | type t => rfl
  | text s =>
    unfold ofTypeArgument
    cases hs : TypeExpr.ofShorthand? s with
    | none => simp [Output.stop, typeTexts, Fault.ofTypeTexts, hs]
    | some t => simp [Output.single, Output.ofList, typeTexts, Fault.ofTypeTexts, hs]
  | int _ | float _ | bool _ => cases h

/-- The fault of arguments bound to parts is that of the texts taken for types, if there are as many
arguments as placeholders and each may stand for a type where one is asked for. -/
theorem fault_bind {parts : List Format.Part} {args : List Argument}
    (hcount : (CodeBlock.placeholders parts).length = args.length)
    (htypes : ∀ a, (Format.Part.type, a) ∈ (CodeBlock.placeholders parts).zip args →
      a.isTypeLike = true) :
    (bind parts args).fault = Fault.ofTypeTexts
      (((CodeBlock.placeholders parts).zip args).flatMap typeTexts) := by
  induction parts generalizing args with
  | nil => rfl
  | cons part parts ih =>
    -- Text takes no argument, and every other part takes the first.
    cases part with
    | text s => exact (Output.fault_append _ _).trans (ih hcount htypes)
    | type =>
      cases args with
      | nil => cases hcount
      | cons a args =>
        have hrest := ih (Nat.succ.inj hcount) fun b hb => htypes b (List.mem_cons_of_mem _ hb)
        have hfirst := fault_ofTypeArgument (htypes a List.mem_cons_self)
        calc (ofTypeArgument a ++ bind parts args).fault
            = (Fault.ofTypeTexts (typeTexts (.type, a))).or (Fault.ofTypeTexts
                (((CodeBlock.placeholders parts).zip args).flatMap typeTexts)) := by
              rw [Output.fault_append, hfirst, hrest]
          _ = _ := (Fault.ofTypeTexts_append _ _).symm
    | literal | string =>
      cases args with
      | nil => cases hcount
      | cons a args =>
        have hrest := ih (Nat.succ.inj hcount) fun b hb => htypes b (List.mem_cons_of_mem _ hb)
        exact (Output.fault_append _ _).trans hrest

end Segment

namespace CodeBlock

/-- The texts that a block takes for types. -/
def typeTexts (b : CodeBlock) : List String :=
  match Format.parse b.format with
  | .ok parts => ((placeholders parts).zip b.args).flatMap Segment.typeTexts
  | .error _ => []

/-- A block satisfies what is asked of it exactly if it has parts, as many placeholders as
arguments, and no truth value or number for a type. -/
theorem check_eq_ok_iff {b : CodeBlock} : b.check = .ok () ↔
    ∃ parts, Format.parse b.format = .ok parts ∧
      (placeholders parts).length = b.args.length ∧
      ∀ a, (Format.Part.type, a) ∈ (placeholders parts).zip b.args → a.isTypeLike = true := by
  unfold check
  cases hparts : Format.parse b.format with
  | error fault => simp [Except.mapError, bind, Except.bind]
  | ok parts =>
    by_cases hcount : (placeholders parts).length = b.args.length
    · cases hfind : ((placeholders parts).zip b.args).find? fun pair =>
          pair.1 == .type && !pair.2.isTypeLike with
      | none =>
        have htypes : ∀ a, (Format.Part.type, a) ∈ (placeholders parts).zip b.args →
            a.isTypeLike = true := fun a ha => by simpa using List.find?_eq_none.1 hfind _ ha
        simpa [hcount, hfind, Except.mapError, bind, Except.bind, pure, Except.pure] using htypes
      | some pair =>
        obtain ⟨part, a⟩ := pair
        have hmem := List.mem_of_find?_eq_some hfind
        have hwrong := List.find?_some hfind
        simp only [Bool.and_eq_true, beq_iff_eq, Bool.not_eq_true'] at hwrong
        obtain ⟨rfl, hlike⟩ := hwrong
        have hnot : ¬∀ a, (Format.Part.type, a) ∈ (placeholders parts).zip b.args →
            a.isTypeLike = true := fun h => by simp [h a hmem] at hlike
        simpa [hcount, hfind, Except.mapError, bind, Except.bind, throw, throwThe,
          MonadExceptOf.throw] using hnot
    · simp [hcount, Except.mapError, bind, Except.bind, throw, throwThe, MonadExceptOf.throw]

/-- The fault of a block that satisfies what is asked of it is that of the texts it takes for
types. -/
theorem fault_segments {b : CodeBlock} (h : b.check = .ok ()) :
    b.segments.fault = Fault.ofTypeTexts b.typeTexts := by
  obtain ⟨parts, hparts, hcount, htypes⟩ := check_eq_ok_iff.1 h
  unfold segments typeTexts
  rw [hparts]
  exact Segment.fault_bind hcount htypes

/-- So is that of its symbols. -/
theorem fault_symbols {b : CodeBlock} (h : b.check = .ok ()) :
    b.symbols.fault = Fault.ofTypeTexts b.typeTexts := by
  rw [symbols, Output.fault_flatMap_ofList, fault_segments h]

end CodeBlock

/-- Whether all of several code blocks satisfy what is asked of them. -/
def AllChecked (blocks : List CodeBlock) : Prop :=
  ∀ b ∈ blocks, b.check = .ok ()

/-! ## Declarations and files -/

/-- The code block of a property, if it has one. -/
def Property.blocks (p : Property) : List CodeBlock :=
  p.initial.toList

/-- The code block of a function, if it has one. -/
def Function.blocks (f : Function) : List CodeBlock :=
  f.body.toList

/-- The code blocks of a declaration: the first values of its properties and the bodies of its
functions, also of the methods of an interface. -/
def Declaration.blocks : Declaration → List CodeBlock
  | .interface d => d.properties.flatMap Property.blocks ++ d.methods.flatMap Function.blocks
  | .classType d => d.properties.flatMap Property.blocks ++ d.methods.flatMap Function.blocks
  | .enumeration _ => []
  | .function d => d.blocks
  | .constant d => d.blocks
  | .typeAlias _ => []

/-- The code blocks of a member. -/
def Member.blocks : Member → List CodeBlock
  | .declaration d => d.blocks
  | .code b => [b]

/-- All code blocks of a file. -/
def FileModel.blocks (f : FileModel) : List CodeBlock :=
  f.members.flatMap Member.blocks

/-- The fault of the symbols of a code block that may be left out. -/
theorem fault_codeSymbols {b : Option CodeBlock} (h : AllChecked b.toList) :
    (codeSymbols b).fault = Fault.ofTypeTexts (b.toList.flatMap CodeBlock.typeTexts) := by
  cases b with
  | none => rfl
  | some b =>
    simpa [codeSymbols] using b.fault_symbols (h b (Option.mem_toList.2 rfl))

/-- The fault of the symbols of a property is that of its block. -/
theorem Property.fault_symbols {p : Property} (h : AllChecked p.blocks) :
    p.symbols.fault = Fault.ofTypeTexts (p.blocks.flatMap CodeBlock.typeTexts) := by
  have hcode := fault_codeSymbols h
  rw [symbols, Output.fault_append, hcode]
  rfl

/-- The types of a signature have no fault. -/
theorem Function.fault_signatureSymbols (f : Function) : f.signatureSymbols.fault = none := by
  have hparameters : Output.concat (f.parameters.map fun p => typeSymbols p.type) =
      .ofList (f.parameters.flatMap fun p => p.type.elim [] TypeExpr.symbols) :=
    Output.concat_map_ofList f.parameters _
  rw [signatureSymbols, hparameters]
  rfl

/-- The fault of the symbols of a function is that of its block. -/
theorem Function.fault_symbols {f : Function} (h : AllChecked f.blocks) :
    f.symbols.fault = Fault.ofTypeTexts (f.blocks.flatMap CodeBlock.typeTexts) := by
  have hcode := fault_codeSymbols h
  rw [symbols, Output.fault_append, f.fault_signatureSymbols, hcode]
  rfl

/-- The fault of the symbols of properties and methods is that of their blocks. -/
theorem fault_memberSymbols {properties : List Property} {methods : List Function}
    (h : AllChecked (properties.flatMap Property.blocks ++ methods.flatMap Function.blocks)) :
    (Output.concat (properties.map Property.symbols) ++
        Output.concat (methods.map Function.symbols)).fault =
      Fault.ofTypeTexts ((properties.flatMap Property.blocks ++
        methods.flatMap Function.blocks).flatMap CodeBlock.typeTexts) := by
  have hproperties := Output.fault_concat_map properties fun p hp =>
    Property.fault_symbols fun b hb =>
      h b (List.mem_append_left _ (List.mem_flatMap.2 ⟨p, hp, hb⟩))
  have hmethods := Output.fault_concat_map methods fun f hf =>
    Function.fault_symbols fun b hb =>
      h b (List.mem_append_right _ (List.mem_flatMap.2 ⟨f, hf, hb⟩))
  rw [Output.fault_append, hproperties, hmethods, List.flatMap_append,
    Fault.ofTypeTexts_append, List.flatMap_assoc, List.flatMap_assoc]

/-- The fault of the symbols of a declaration is that of its blocks, if each satisfies what is asked
of it. -/
theorem Declaration.fault_symbols {d : Declaration} (h : AllChecked d.blocks) :
    d.symbols.fault = Fault.ofTypeTexts (d.blocks.flatMap CodeBlock.typeTexts) := by
  cases d with
  | interface d =>
    rw [symbols, Output.append_assoc, Output.fault_append, fault_memberSymbols h]
    rfl
  | classType d =>
    rw [symbols, Output.append_assoc, Output.fault_append, fault_memberSymbols h]
    rfl
  | enumeration d => rfl
  | function d => exact d.fault_symbols h
  | constant d => exact d.fault_symbols h
  | typeAlias d => rfl

namespace FileModel

/-- Every code block of a file satisfies what is asked of it. -/
def IsChecked (f : FileModel) : Prop :=
  AllChecked f.blocks

/-- The blocks of a file are those of its declarations and its free ones. -/
theorem mem_blocks {f : FileModel} {b : CodeBlock} :
    b ∈ f.blocks ↔ (∃ d ∈ f.declarations, b ∈ d.blocks) ∨ b ∈ f.codeBlocks := by
  simp only [blocks, declarations, codeBlocks, List.mem_flatMap, List.mem_filterMap]
  constructor
  · rintro ⟨m, hm, hb⟩
    cases m with
    | declaration d => exact .inl ⟨d, ⟨_, hm, rfl⟩, hb⟩
    | code c => exact .inr ⟨_, hm, by rw [List.mem_singleton.1 hb]; rfl⟩
  · rintro (⟨d, ⟨m, hm, hd⟩, hb⟩ | ⟨m, hm, hd⟩)
    · cases m with
      | declaration d' =>
        cases hd
        exact ⟨_, hm, hb⟩
      | code c => cases hd
    · cases m with
      | declaration d' => cases hd
      | code c =>
        cases hd
        exact ⟨_, hm, List.mem_singleton_self _⟩

/-- The texts that the blocks of a file take for types, those of the declarations first. -/
def typeTexts (f : FileModel) : List String :=
  f.declarations.flatMap (fun d => d.blocks.flatMap CodeBlock.typeTexts) ++
    f.codeBlocks.flatMap CodeBlock.typeTexts

/-- The symbols of the declarations of a file. -/
def typedSymbols (f : FileModel) : Output Symbol :=
  .concat (f.declarations.map Declaration.symbols)

/-- The symbols of the free code blocks of a file. -/
def freeSymbols (f : FileModel) : Output Symbol :=
  .concat (f.codeBlocks.map CodeBlock.symbols)

/-- The fault of the symbols of a file, those of its declarations first, is that of the texts that
its blocks take for types, if each satisfies what is asked of it. -/
theorem fault_symbols {f : FileModel} (h : f.IsChecked) :
    f.typedSymbols.fault.or f.freeSymbols.fault = Fault.ofTypeTexts f.typeTexts := by
  have htyped := Output.fault_concat_map f.declarations fun d hd =>
    Declaration.fault_symbols fun b hb => h b (mem_blocks.2 (.inl ⟨d, hd, hb⟩))
  have hfree := Output.fault_concat_map f.codeBlocks fun b hb =>
    CodeBlock.fault_symbols (h b (mem_blocks.2 (.inr hb)))
  rw [typedSymbols, freeSymbols, htyped, hfree, typeTexts, Fault.ofTypeTexts_append]

end FileModel

end ModuleAssembly
