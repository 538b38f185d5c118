import ModuleAssembly.Proofs.Assembly.Failure
import ModuleAssembly.Proofs.Code.Expansion

/-!
# Files with their types written out

In a file too every text that stands for a type may be replaced by the type
(`FileModel.expanded`). The symbols of a declaration and what is written for it are those of its
types and of its code blocks, so they stay, and the file is assembled as before
(`assemble_expanded`).
-/

namespace ModuleAssembly

/-! ## Expanded parts -/

/-- A property with its first value expanded. -/
def Property.expanded (p : Property) : Property :=
  { p with initial := p.initial.map CodeBlock.expanded }

/-- A function with its body expanded. -/
def Function.expanded (f : Function) : Function :=
  { f with body := f.body.map CodeBlock.expanded }

/-- An interface with its properties and methods expanded. -/
def Interface.expanded (d : Interface) : Interface :=
  { d with
    properties := d.properties.map Property.expanded
    methods := d.methods.map Function.expanded }

/-- A class with its properties and methods expanded. -/
def Class.expanded (d : Class) : Class :=
  { d with
    properties := d.properties.map Property.expanded
    methods := d.methods.map Function.expanded }

/-- A declaration with its code blocks expanded. -/
def Declaration.expanded : Declaration → Declaration
  | .interface d => .interface d.expanded
  | .classType d => .classType d.expanded
  | .enumeration d => .enumeration d
  | .function d => .function d.expanded
  | .constant d => .constant d.expanded
  | .typeAlias d => .typeAlias d

/-- A member with its code blocks expanded. -/
def Member.expanded : Member → Member
  | .declaration d => .declaration d.expanded
  | .code b => .code b.expanded

/-- A file with all its code blocks expanded. -/
def FileModel.expanded (f : FileModel) : FileModel :=
  { f with members := f.members.map Member.expanded }

/-- What is made of each element of a list stays, if it stays where the element is changed. -/
theorem map_map_of_unchanged {α β : Type} {change : α → α} {f : α → β}
    (h : ∀ x, f (change x) = f x) (xs : List α) : (xs.map change).map f = xs.map f := by
  rw [List.map_map]
  exact List.map_congr_left fun x _ => h x

/-! ## Symbols -/

/-- A code block has the symbols that it has when it is expanded. -/
theorem CodeBlock.symbols_expanded (b : CodeBlock) : b.expanded.symbols = b.symbols := by
  rw [symbols, segments_expanded, symbols]

/-- So has one that may be left out. -/
theorem codeSymbols_expanded (b : Option CodeBlock) :
    codeSymbols (b.map CodeBlock.expanded) = codeSymbols b := by
  cases b with
  | none => rfl
  | some b => exact b.symbols_expanded

/-- So has a property. -/
theorem Property.symbols_expanded (p : Property) : p.expanded.symbols = p.symbols := by
  rw [symbols, expanded, codeSymbols_expanded, symbols]

/-- So has a function. -/
theorem Function.symbols_expanded (f : Function) : f.expanded.symbols = f.symbols := by
  rw [symbols, expanded, codeSymbols_expanded, symbols]
  rfl

/-- So has a declaration. -/
theorem Declaration.symbols_expanded (d : Declaration) : d.expanded.symbols = d.symbols := by
  have hproperties := map_map_of_unchanged Property.symbols_expanded
  have hmethods := map_map_of_unchanged Function.symbols_expanded
  cases d with
  | interface d => simp only [expanded, Interface.expanded, symbols, hproperties, hmethods]
  | classType d => simp only [expanded, Class.expanded, symbols, hproperties, hmethods]
  | enumeration d | typeAlias d => rfl
  | function d => exact d.symbols_expanded
  | constant d => exact d.symbols_expanded

/-! ## What is written -/

/-- A code block is written as it is when it is expanded. -/
theorem CodeBlock.emission_expanded (b : CodeBlock) : b.expanded.emission = b.emission := by
  rw [emission, segments_expanded, emission]

/-- So is a property of an interface or class. -/
theorem Property.memberEmission_expanded (p : Property) :
    p.expanded.memberEmission = p.memberEmission := by
  have hassigned : CodeBlock.assignment p.expanded.initial = CodeBlock.assignment p.initial := by
    unfold expanded
    cases p.initial with
    | none => rfl
    | some b => simp [CodeBlock.assignment, b.emission_expanded]
  rw [memberEmission, hassigned]
  rfl

/-- So is a constant. -/
theorem Property.constantEmission_expanded (p : Property) :
    p.expanded.constantEmission = p.constantEmission := by
  unfold constantEmission expanded
  cases p.initial with
  | none => rfl
  | some b => simp [CodeBlock.assignment, b.emission_expanded]

/-- So is the body of a function. -/
theorem Function.bodyOr_expanded (f : Function) (bodiless : String) :
    f.expanded.bodyOr bodiless = f.bodyOr bodiless := by
  unfold bodyOr expanded
  cases f.body with
  | none => rfl
  | some b => simp [CodeBlock.bodyEmission, b.emission_expanded]

/-- So is a method of an interface. -/
theorem Function.interfaceEmission_expanded (f : Function) :
    f.expanded.interfaceEmission = f.interfaceEmission :=
  rfl

/-- So is a method of a class. -/
theorem Function.classEmission_expanded (f : Function) :
    f.expanded.classEmission = f.classEmission := by
  rw [classEmission, bodyOr_expanded]
  rfl

/-- So is a function. -/
theorem Function.emission_expanded (f : Function) : f.expanded.emission = f.emission := by
  rw [emission, bodyOr_expanded]
  rfl

/-- So is an interface. -/
theorem Interface.emission_expanded (d : Interface) : d.expanded.emission = d.emission := by
  have hproperties := map_map_of_unchanged Property.memberEmission_expanded d.properties
  have hmethods := map_map_of_unchanged Function.interfaceEmission_expanded d.methods
  simp only [emission, expanded, hproperties, hmethods, List.isEmpty_map]

/-- So is a class. -/
theorem Class.emission_expanded (d : Class) : d.expanded.emission = d.emission := by
  have hproperties := map_map_of_unchanged Property.memberEmission_expanded d.properties
  have hmethods := map_map_of_unchanged Function.classEmission_expanded d.methods
  simp only [emission, expanded, hproperties, hmethods, List.isEmpty_map]
  rfl

/-- So is a member of a file. -/
theorem Member.emission_expanded (docs : Docs) (m : Member) :
    m.expanded.emission docs = m.emission docs := by
  cases m with
  | code b => exact b.emission_expanded
  | declaration d =>
    have hdoc : ∀ e : Declaration, e.docIn docs = d.docIn docs → e.bodyEmission = d.bodyEmission →
        e.emission docs = d.emission docs := by
      intro e hdoc hbody
      rw [Declaration.emission, hdoc, hbody, Declaration.emission]
    cases d with
    | interface d => exact hdoc _ rfl d.emission_expanded
    | classType d => exact hdoc _ rfl d.emission_expanded
    | enumeration d | typeAlias d => rfl
    | function d => exact hdoc _ rfl d.emission_expanded
    | constant d => exact hdoc _ rfl d.constantEmission_expanded

/-! ## Files -/

namespace FileModel

/-- An expanded file has the declarations expanded. -/
theorem declarations_expanded (f : FileModel) :
    f.expanded.declarations = f.declarations.map Declaration.expanded := by
  rw [declarations, expanded, declarations, List.filterMap_map, List.map_filterMap]
  refine List.filterMap_congr fun m _ => ?_
  cases m with
  | declaration d => rfl
  | code b => rfl

/-- It has the code blocks expanded. -/
theorem codeBlocks_expanded (f : FileModel) :
    f.expanded.codeBlocks = f.codeBlocks.map CodeBlock.expanded := by
  rw [codeBlocks, expanded, codeBlocks, List.filterMap_map, List.map_filterMap]
  refine List.filterMap_congr fun m _ => ?_
  cases m with
  | declaration d => rfl
  | code b => rfl

/-- Its members are written in the same order. -/
theorem emissionOrder_expanded (f : FileModel) :
    f.expanded.emissionOrder = f.emissionOrder.map Member.expanded := by
  rw [emissionOrder, declarations_expanded, codeBlocks_expanded, emissionOrder, List.map_append]
  simp only [List.map_map]
  rfl

/-- The symbols of its declarations are the same. -/
theorem collect_expanded (f : FileModel) : collect f.expanded.members = collect f.members := by
  have hsymbols : f.expanded.declarations.map Declaration.symbols =
      f.declarations.map Declaration.symbols := by
    rw [declarations_expanded, map_map_of_unchanged Declaration.symbols_expanded]
  exact congrArg (fun symbols => (Output.concat symbols).toExcept) hsymbols

/-- So are those of its code blocks. -/
theorem collectCode_expanded (f : FileModel) :
    collectCode f.expanded.members = collectCode f.members := by
  have hsymbols : f.expanded.codeBlocks.map CodeBlock.symbols =
      f.codeBlocks.map CodeBlock.symbols := by
    rw [codeBlocks_expanded, map_map_of_unchanged CodeBlock.symbols_expanded]
  exact congrArg (fun symbols => (Output.concat symbols).toExcept) hsymbols

/-- The same tokens are written for it. -/
theorem tokens_expanded (f : FileModel) (config : AssemblyConfig) (imports : List Import)
    (docs : Docs) : f.expanded.tokens config imports docs = f.tokens config imports docs := by
  have hmembers : (f.expanded.emissionOrder.map fun m => Emission.withFreshLine (m.emission docs)) =
      f.emissionOrder.map fun m => Emission.withFreshLine (m.emission docs) := by
    rw [emissionOrder_expanded]
    exact map_map_of_unchanged (f := fun m => Emission.withFreshLine (m.emission docs))
      (fun m => congrArg Emission.withFreshLine (m.emission_expanded docs)) f.emissionOrder
  have hsections : f.expanded.sections config.base imports docs =
      f.sections config.base imports docs := by
    rw [sections, hmembers, sections]
    rfl
  rw [tokens, emission, hsections, tokens, emission]

end FileModel

/-- The side information of a file is what the loader finds for it. -/
theorem MetadataLoader.fst_load_congr {loader loader' : MetadataLoader} {f f' : FileModel}
    (h : loader f = loader' f') : (loader.load f).1 = (loader'.load f').1 := by
  rw [load, load, h]
  cases loader' f' with
  | ok metadata => rfl
  | error reason => rfl

/-- A file is assembled as it is with its code blocks expanded, where the same side information is
found for both. -/
theorem assemble_expanded {loader loader' : MetadataLoader} {f : FileModel}
    (h : loader f.expanded = loader' f) (config : AssemblyConfig) :
    assemble config loader f.expanded = assemble config loader' f := by
  rw [assemble_eq_bind, assemble_eq_bind, f.collect_expanded, f.collectCode_expanded,
    MetadataLoader.fst_load_congr h]
  simp only [f.tokens_expanded]
  rfl

/-- Two files that become one file when they are expanded are assembled alike. -/
theorem assemble_eq_of_expanded_eq {loader : MetadataLoader} {f g : FileModel}
    (hexpanded : f.expanded = g.expanded) (hloader : loader f = loader g)
    (config : AssemblyConfig) : assemble config loader f = assemble config loader g := by
  -- The loader may find something else for the expanded file, so its answer for `g` is taken there.
  let found : MetadataLoader := fun _ => loader g
  have hf : assemble config found f.expanded = assemble config loader f :=
    assemble_expanded hloader.symm config
  have hg : assemble config found g.expanded = assemble config loader g :=
    assemble_expanded rfl config
  rw [← hf, hexpanded, hg]

end ModuleAssembly
