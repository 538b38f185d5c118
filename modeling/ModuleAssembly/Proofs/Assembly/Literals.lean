import ModuleAssembly.Proofs.Assembly.Exports
import ModuleAssembly.Proofs.Assembly.Parts
import ModuleAssembly.Proofs.Stream.Indentation
import ModuleAssembly.Proofs.Text.Literals
import ModuleAssembly.Validation.Members

/-!
# Literals of files

The values of enumerations, the arguments of code blocks that stand for strings and the specifiers
of imports are written as literals (`FileModel.quotedTexts`). The literal of each stands in the file
as it is, on one line of those that end in a line feed. But a carriage return in the text is written
as itself, and then the literal is not allowed (`assemble_isLiteral_iff`).
-/

namespace ModuleAssembly

open Emission (text)

/-! ## Literals in an emission -/

namespace Emission

/-- Whether the literal of a text stands in one of the texts of an emission. -/
def Quotes (e : Emission) (s : String) : Prop :=
  ∃ front rest, (text (front ++ Text.quote s ++ rest)).IsPartOf e

/-- A literal in a part is a literal in the whole. -/
theorem Quotes.mono {e whole : Emission} {s : String} (h : e.Quotes s) (hpart : e.IsPartOf whole) :
    whole.Quotes s := by
  obtain ⟨front, rest, htext⟩ := h
  exact ⟨front, rest, htext.trans hpart⟩

/-- A literal by itself. -/
theorem quotes_text (s : String) : (text (Text.quote s)).Quotes s := by
  refine ⟨"", "", ?_⟩
  rw [String.empty_append, String.append_empty]
  exact .refl

/-- A literal in an emission stands in its text as it is, wherever the emission is written. -/
theorem Quotes.exists_rendered {e : Emission} {s : String} (h : e.Quotes s)
    (hfault : e.fault = none) (table : RenameTable) (w : Writer) : ∃ before after,
      (w.write e.items).rendered table = before ++ Text.quote s ++ after := by
  obtain ⟨front, rest, htext⟩ := h
  obtain ⟨-, earlier, later, hitems⟩ := htext hfault
  -- The writer is somewhere on a line when it comes to the literal.
  generalize hv : (w.write earlier).putText front = v
  have hpiece : (w.write earlier).write (text (front ++ Text.quote s ++ rest)).items =
      (v.putText (Text.quote s)).putText rest := by
    rw [← hv, ← Writer.putText_append, ← Writer.putText_append, ← String.append_assoc]
    exact Writer.write_text _ _
  have hwrite : w.write e.items = (v.putText (Text.quote s)).write (.text rest :: later) := by
    rw [← hitems, Writer.write_append, Writer.write_append, hpiece, Writer.write_cons,
      Writer.put_text]
  obtain ⟨after, hafter⟩ :=
    Writer.exists_rendered_write table (v.putText (Text.quote s)) (.text rest :: later)
  have hliteral : Text.quote s ≠ "" := by
    intro hempty
    simpa [Text.toList_quote] using congrArg String.toList hempty
  rw [v.rendered_putText_of_notMem hliteral (Text.lineFeed_notMem_quote s), ← hwrite] at hafter
  exact ⟨_, after, hafter⟩

end Emission

/-! ## What is quoted in a file -/

/-- The text that a segment of a code block stands for as a string. -/
def Segment.quotedText? : Segment → Option String
  | .string a => a.described.toOption
  | _ => none

/-- The texts that are written as literals in a code block: the arguments for its string
placeholders. -/
def CodeBlock.quotedTexts (b : CodeBlock) : List String :=
  b.segments.items.filterMap Segment.quotedText?

/-- The text of a constant of an enumeration, if its value is one. -/
def Constant.quotedText? (c : Constant) : Option String :=
  match c.value with
  | some (.text s) => some s
  | _ => none

/-- The texts that are written as literals in a declaration: the values of an enumeration, and those
of the code blocks that are written. -/
def Declaration.quotedTexts (d : Declaration) : List String :=
  match d with
  | .enumeration e => e.constants.filterMap Constant.quotedText?
  | _ => d.printedBlocks.flatMap CodeBlock.quotedTexts

/-- The texts that are written as literals in a member of a file. -/
def Member.quotedTexts : Member → List String
  | .declaration d => d.quotedTexts
  | .code b => b.quotedTexts

/-- The texts that are written as literals in a file: those in its members, and the specifiers of
its imports. -/
def FileModel.quotedTexts (f : FileModel) (base : List String) (imports : List Import) :
    List String :=
  f.members.flatMap Member.quotedTexts ++
    match imports.mapM (Import.placed base f.path) with
    | .ok placed => Import.specifiers placed
    | .error _ => []

/-- The literals of a code block are written in it. -/
theorem CodeBlock.quotes_emission {b : CodeBlock} {s : String} (h : s ∈ b.quotedTexts) :
    b.emission.Quotes s := by
  obtain ⟨segment, hsegment, hs⟩ := List.mem_filterMap.1 h
  cases segment with
  | string a =>
    cases ha : a.described with
    | error fault => simp [Segment.quotedText?, ha, Except.toOption] at hs
    | ok value =>
      have hvalue : value = s := by simpa [Segment.quotedText?, ha, Except.toOption] using hs
      have hpart := isPartOf_of_mem_segments hsegment
      simp only [Segment.emission, ha, Except.map, Emission.printed] at hpart
      exact hvalue ▸ (Emission.quotes_text value).mono hpart
  | text _ | type _ | literal _ => cases hs

/-- The literal of a constant is written with it. -/
theorem Constant.quotes_emission {c : Constant} {s : String} (h : c.quotedText? = some s) :
    c.emission.Quotes s := by
  have hvalue : c.value = some (.text s) := by
    unfold quotedText? at h
    split at h
    · next hvalue =>
      cases h
      exact hvalue
    · cases h
  have hemission : c.emission =
      docEmission c.doc ++ text (c.name ++ " = " ++ Text.quote s ++ ",\n") := by
    rw [emission, hvalue]
  rw [hemission]
  exact ⟨c.name ++ " = ", ",\n", Emission.IsPartOf.refl.right⟩

/-- The literals of a declaration are written in it. -/
theorem Declaration.quotes_bodyEmission {d : Declaration} {s : String} (h : s ∈ d.quotedTexts) :
    d.bodyEmission.Quotes s := by
  have hblocks : s ∈ d.printedBlocks.flatMap CodeBlock.quotedTexts → d.bodyEmission.Quotes s := by
    intro hs
    obtain ⟨b, hb, hs⟩ := List.mem_flatMap.1 hs
    exact (CodeBlock.quotes_emission hs).mono (isPartOf_of_mem_printedBlocks hb)
  cases d with
  | enumeration d =>
    obtain ⟨c, hc, hs⟩ := List.mem_filterMap.1 h
    exact (Constant.quotes_emission hs).mono (Enumeration.isPartOf_of_mem_constants hc)
  | interface _ | classType _ | function _ | constant _ | typeAlias _ => exact hblocks h

/-- The literals of a member are written in it. -/
theorem Member.quotes_emission {m : Member} {s : String} (h : s ∈ m.quotedTexts) (docs : Docs) :
    (m.emission docs).Quotes s := by
  cases m with
  | declaration d => exact (Declaration.quotes_bodyEmission h).mono Emission.IsPartOf.refl.right
  | code b => exact CodeBlock.quotes_emission h

/-- The literal of a specifier is written in its statement. -/
theorem Import.quotes_statement (specifier : String) (imports : List Import) :
    (statement specifier imports).Quotes specifier :=
  ⟨" \x7d from ", ";\n", Emission.IsPartOf.refl.right⟩

/-- The literals of a file are written in it. -/
theorem FileModel.quotes_emission {f : FileModel} {base : List String} {imports : List Import}
    {s : String} (h : s ∈ f.quotedTexts base imports) (docs : Docs) :
    (f.emission base imports docs).Quotes s := by
  rcases List.mem_append.1 h with hmembers | himports
  · obtain ⟨m, hm, hs⟩ := List.mem_flatMap.1 hmembers
    exact (Member.quotes_emission hs docs).mono (isPartOf_of_mem_members hm)
  · split at himports
    · next placed hplaced =>
      exact (Import.quotes_statement s _).mono (isPartOf_of_mem_specifiers hplaced himports)
    · cases himports

/-- Every literal stands in the assembled file as it is and has no line feed. It has the carriage
returns of its text, so it is allowed exactly if the text has none. -/
theorem assemble_isLiteral_iff {config : AssemblyConfig} {loader : MetadataLoader} {f : FileModel}
    {file : AssembledFile} (h : assemble config loader f = .ok file) :
    ∀ s ∈ f.quotedTexts config.base file.imports,
      (∃ before after, file.content = before ++ Text.quote s ++ after) ∧
        '\n' ∉ (Text.quote s).toList ∧
        ('\r' ∈ (Text.quote s).toList ↔ '\r' ∈ s.toList) ∧
        (Text.IsLiteral (Text.quote s) ↔ '\r' ∉ s.toList) := by
  intro s hs
  obtain ⟨typed, code, tokens, hfile⟩ := exists_assembledFrom h
  obtain ⟨hfault, htokens⟩ := FileModel.tokens_eq_ok hfile.tokens_eq
  refine ⟨?_, Text.lineFeed_notMem_quote s, Text.carriageReturn_mem_quote s,
    Text.isLiteral_quote_iff s⟩
  have hquotes := FileModel.quotes_emission hs (loader.load f).1.comments
  rw [hfile.content_eq, htokens]
  exact hquotes.exists_rendered hfault ⟨file.renames⟩ { unit := config.indent }

/-- A file with a literal from each place: the value of an enumeration with a quote, the argument of
a code block with a backslash, and a specifier. -/
theorem assemble_isLiteral_of_three :
    let item : Symbol := ⟨"Item", "./a"⟩
    let f : FileModel :=
      { path := "store.ts"
        members := [
          .declaration (.enumeration
            { name := "E", constants := [{ name := "A", value := some (.text "it's") }] }),
          .code ⟨"%T.log(%S);", [.type (.symbol item), .text "C:\\"]⟩] }
    let file : AssembledFile :=
      { path := "store.ts"
        content := "import \x7b Item \x7d from './a';\n\n" ++
          "export enum E \x7b\n  A = 'it\\'s',\n\x7d\n\nItem.log('C:\\\\');\n"
        imports := [⟨item, none⟩]
        renames := [] }
    assemble {} .nothing f = .ok file ∧ f.quotedTexts [] file.imports = ["it's", "C:\\", "./a"] ∧
      ∀ s ∈ f.quotedTexts [] file.imports,
        (∃ before after, file.content = before ++ Text.quote s ++ after) ∧
          Text.IsLiteral (Text.quote s) := by
  intro item f file
  have hplaced : Import.placed [] "store.ts" ⟨item, none⟩ = .ok ("./a", ⟨item, none⟩) := by
    decide +kernel
  have hblock : Import.block [] "store.ts" [⟨item, none⟩] =
      .ofList (Import.statementPieces "./a" [item]) :=
    Import.block_singleton hplaced
  have hsections : f.sections [] [⟨item, none⟩] [] = Import.block [] "store.ts" [⟨item, none⟩] ::
      f.emissionOrder.map fun m => Emission.withFreshLine (m.emission []) := rfl
  have htokens : f.tokens {} [⟨item, none⟩] [] = .ok
      [.text "import \x7b ", .binding item,
        .text " \x7d from './a';\n\nexport enum E \x7b\n  A = 'it\\'s',\n\x7d\n\n", .usage item,
        .text ".log('C:\\\\');\n"] := by
    rw [FileModel.tokens, FileModel.emission, hsections, hblock]
    decide +kernel
  have hfile : AssembledFrom {} .nothing f [] [item] _ file :=
    ⟨rfl, by decide +kernel, by decide +kernel, by decide +kernel, htokens, by decide +kernel⟩
  have htexts : f.quotedTexts [] file.imports = ["it's", "C:\\", "./a"] := by
    have hall : file.imports.mapM (Import.placed [] "store.ts") = .ok [("./a", ⟨item, none⟩)] := by
      decide +kernel
    have hspecifiers : Import.specifiers [("./a", ⟨item, none⟩)] = ["./a"] :=
      List.mergeSort_singleton _
    rw [FileModel.quotedTexts, hall]
    dsimp only
    rw [hspecifiers]
    decide +kernel
  have hliterals := assemble_isLiteral_iff hfile.assemble_eq
  refine ⟨hfile.assemble_eq, htexts, fun s hs => ?_⟩
  obtain ⟨hstands, -, -, hallowed⟩ := hliterals s hs
  have hfree : ∀ s ∈ ["it's", "C:\\", "./a"], '\r' ∉ s.toList := by decide
  exact ⟨hstands, hallowed.2 (hfree s (htexts ▸ hs))⟩

/-- The value of an enumeration with a carriage return is accepted, and its literal is not allowed:
the file ends a line inside it. -/
theorem assemble_literal_with_carriageReturn :
    let doc : Value := .object
      [("path", .text "store.ts"),
        ("members", .list
          [.object [("kind", .text "enum"), ("name", .text "E"),
            ("constants", .list [.object [("name", .text "A"), ("value", .text "a\rb")]])]])]
    let f : FileModel :=
      { path := "store.ts"
        members := [.declaration (.enumeration
          { name := "E", constants := [{ name := "A", value := some (.text "a\rb") }] })] }
    FileModel.ofValue doc = .valid f ∧
      (∃ file, assemble {} .nothing f = .ok file ∧
        file.content = "export enum E \x7b\n  A = 'a\rb',\n\x7d\n" ∧
        f.quotedTexts [] file.imports = ["a\rb"]) ∧
      '\r' ∈ (Text.quote "a\rb").toList ∧ ¬Text.IsLiteral (Text.quote "a\rb") := by
  intro doc f
  have hcarriage : '\r' ∈ (Text.quote "a\rb").toList := by decide
  refine ⟨rfl, ⟨_, rfl, by decide +kernel, by decide +kernel⟩, hcarriage, ?_⟩
  rw [Text.isLiteral_quote_iff]
  decide

end ModuleAssembly
