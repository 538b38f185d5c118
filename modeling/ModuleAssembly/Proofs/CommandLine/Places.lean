import Mathlib.Data.List.Basic
import ModuleAssembly.CommandLine.FileTree
import ModuleAssembly.Path

/-!
# Where paths lead

By its names alone a path leads to a place in a tree of files (`FileTree.placeOf`), which is where
it is resolved to (`FileTree.placeOf_ofText`). Where every directory on the way is there, it is also
what the path leads to when it is looked up (`FileTree.lookUp_eq`).

A file that is written stands afterwards at its place, and on the way to it directories may be new;
all else stays as it was (`FileTree.write_cases`). Of several files that are written the last one to
a place stands there (`FileTree.wroteAll`).
-/

namespace ModuleAssembly

/-! ## Places by names alone -/

namespace Place

/-- Goes on from a place by a name or a step back. -/
def go (place : Place) (name : String) : Place :=
  if name = ".." then place.dropLast else place ++ [name]

/-- Goes on from a place by names and steps back. -/
def follow (place : Place) (names : List String) : Place :=
  names.foldl go place

/-- The last name leads on from where the others lead. -/
theorem follow_concat (place : Place) (names : List String) (name : String) :
    follow place (names ++ [name]) = go (follow place names) name := by
  rw [follow, List.foldl_append]
  rfl

/-- The names of a path lead where its segments do. -/
theorem follow_ofText (place : Place) (s : String) :
    follow place (TreePath.ofText s).names = Path.resolve place (Path.segments s) := by
  have hstep : ∀ (resolved : Place) (name : String),
      (if (name != "" && name != ".") = true then resolved.go name else resolved) =
        Path.step resolved name := by
    intro resolved name
    unfold go Path.step
    by_cases hstay : name = "" ∨ name = "."
    · have hstays : ¬(name != "" && name != ".") = true := by simpa [imp_iff_not_or] using hstay
      rw [if_pos hstay, if_neg hstays]
    · have hmoves : (name != "" && name != ".") = true := by simpa using not_or.1 hstay
      rw [if_neg hstay, if_pos hmoves]
  change ((Path.segments s).filter fun name => name != "" && name != ".").foldl go place = _
  rw [List.foldl_filter]
  simp only [hstep]
  rfl

end Place

namespace FileTree

variable {t t' : FileTree} {place : Place} {name content : String} {p : TreePath}

/-- The place that a path leads to by its names alone. -/
def placeOf (t : FileTree) (p : TreePath) : Place :=
  Place.follow (t.start p) p.names

/-- A path that is read from a text leads where it is resolved to from the working directory. -/
theorem placeOf_ofText (t : FileTree) (s : String) :
    t.placeOf (.ofText s) = Path.resolve (Path.origin t.workingDirectory s) (Path.segments s) :=
  Place.follow_ofText _ s

/-- A path that goes on from a directory leads where it is resolved to from there. -/
theorem placeOf_join (t : FileTree) (base : TreePath) (s : String) :
    t.placeOf (base.join (.ofText s)) =
      Path.resolve (Path.origin (t.placeOf base) s) (Path.segments s) := by
  rw [← Place.follow_ofText, placeOf, TreePath.join]
  unfold Path.origin
  cases habsolute : (Text.after? "/" s).isSome with
  | true =>
    have hpath : (TreePath.ofText s).absolute = true := habsolute
    rw [if_pos hpath, start, if_pos hpath, if_pos rfl]
  | false =>
    have hpath : ¬(TreePath.ofText s).absolute = true := by simp [TreePath.ofText, habsolute]
    rw [if_neg hpath, if_neg (by simp)]
    exact List.foldl_append

/-- Paths start in the same places in trees with the same working directory. -/
theorem start_congr (h : t'.workingDirectory = t.workingDirectory) (p : TreePath) :
    t'.start p = t.start p := by
  rw [start, h, start]

/-- They lead to the same places there. -/
theorem placeOf_congr (h : t'.workingDirectory = t.workingDirectory) (p : TreePath) :
    t'.placeOf p = t.placeOf p := by
  rw [placeOf, start_congr h, placeOf]

/-! ## Looking up -/

/-- Whether a way from a place may be gone: each name that may be one stands in a directory. -/
def Leads (t : FileTree) (place : Place) : List String → Prop
  | [] => True
  | name :: names =>
    t.node? place = some .directory ∧ isName name = true ∧ t.Leads (place.go name) names

/-- A way stays open where directories stay. -/
theorem Leads.mono (h : ∀ q, t.node? q = some .directory → t'.node? q = some .directory)
    {names : List String} (hway : t.Leads place names) : t'.Leads place names := by
  induction names generalizing place with
  | nil => trivial
  | cons name names ih => exact ⟨h place hway.1, hway.2.1, ih hway.2.2⟩

/-- A way may be gone on with a name. -/
theorem Leads.concat {names : List String} (hway : t.Leads place names)
    (hdirectory : t.node? (place.follow names) = some .directory) (hname : isName name = true) :
    t.Leads place (names ++ [name]) := by
  induction names generalizing place with
  | nil => exact ⟨hdirectory, hname, trivial⟩
  | cons first names ih => exact ⟨hway.1, hway.2.1, ih hway.2.2 hdirectory⟩

/-- All names on an open way may be names. -/
theorem Leads.isName {names : List String} (hway : t.Leads place names) :
    ∀ name ∈ names, isName name = true := by
  induction names generalizing place with
  | nil => nofun
  | cons name names ih => exact List.forall_mem_cons.2 ⟨hway.2.1, ih hway.2.2⟩

/-- An open way leads to what stands at its end. -/
theorem lookUpFrom_eq {names : List String} (hway : t.Leads place names) :
    t.lookUpFrom place names = (t.node? (place.follow names)).elim .missing .found := by
  induction names generalizing place with
  | nil => rfl
  | cons name names ih =>
    obtain ⟨hdirectory, hname, hrest⟩ := hway
    have hshort : ¬longestName < name.utf8ByteSize := by
      have hbytes := (Bool.and_eq_true_iff.1 hname).2
      exact Nat.not_lt.2 (of_decide_eq_true hbytes)
    rw [lookUpFrom, if_neg (not_not.2 hdirectory), if_neg hshort]
    exact ih hrest

/-- A path with an open way is looked up where it leads by its names alone. -/
theorem lookUp_eq (hway : t.Leads (t.start p) p.names) (hfits : p.fits = true) :
    t.lookUp p = (t.node? (t.placeOf p)).elim .missing .found := by
  have hnul : ¬p.hasNul = true := by
    intro hnul
    obtain ⟨name, hmem, hname⟩ := List.any_eq_true.1 hnul
    have hplain := (Bool.and_eq_true_iff.1 (hway.isName name hmem)).1
    rw [hname] at hplain
    cases hplain
  rw [lookUp, if_neg hnul, hfits, if_neg (by simp), lookUpFrom_eq hway]
  rfl

/-! ## New directories -/

/-- What stands at a place after something is put at one below the root. -/
theorem node?_put (hplace : place ≠ []) (n : Node) (q : Place) :
    (t.put place n).node? q = if q = place then some n else t.node? q := by
  unfold node? put
  cases q with
  | nil => rw [if_neg hplace.symm]; rfl
  | cons name names =>
    have hbelow : ¬(name :: names).isEmpty = true := by simp
    rw [if_neg hbelow, if_neg hbelow, Association.lookup_insert]
    simp only [beq_iff_eq]

/-- Whether what stands at a place is the same as before, or a directory where nothing was. -/
def SameOrNew (before after : Option Node) : Prop :=
  after = before ∨ before = none ∧ after = some .directory

/-- A directory stays. -/
theorem SameOrNew.directory {before after : Option Node} (h : SameOrNew before after)
    (hbefore : before = some .directory) : after = some .directory := by
  rcases h with rfl | ⟨hnone, -⟩
  · exact hbefore
  · rw [hnone] at hbefore
    cases hbefore

/-- A directory that is new stays. -/
theorem SameOrNew.trans {before between after : Option Node} (h : SameOrNew before between)
    (h' : SameOrNew between after) : SameOrNew before after := by
  rcases h with rfl | ⟨hnone, hnew⟩
  · exact h'
  · exact .inr ⟨hnone, h'.directory hnew⟩

/-- Whether a tree differs from another one only by new directories. -/
structure Extends (t t' : FileTree) : Prop where
  /-- The working directory is the same. -/
  workingDirectory : t'.workingDirectory = t.workingDirectory
  /-- What stands at a place is the same, or new. -/
  node? : ∀ q, SameOrNew (t.node? q) (t'.node? q)

/-- A tree extends itself. -/
theorem Extends.refl (t : FileTree) : t.Extends t :=
  ⟨rfl, fun _ => .inl rfl⟩

/-- Directories stay. -/
theorem Extends.directory (h : t.Extends t') {q : Place} (hq : t.node? q = some .directory) :
    t'.node? q = some .directory :=
  (h.node? q).directory hq

/-- New directories may be followed by more. -/
theorem Extends.trans {t'' : FileTree} (h : t.Extends t') (h' : t'.Extends t'') : t.Extends t'' :=
  ⟨h'.workingDirectory.trans h.workingDirectory, fun q => (h.node? q).trans (h'.node? q)⟩

/-- A step is gone from a directory by what may be a name. -/
theorem step_eq_some_iff {next : Place} : t.step place name = some next ↔
    t.node? place = some .directory ∧ isName name = true ∧ next = place.go name := by
  unfold step Place.go
  by_cases hgo : t.node? place ≠ some .directory ∨ (!isName name) = true
  · rw [if_pos hgo]
    refine iff_of_false nofun fun ⟨hdirectory, hname, _⟩ => ?_
    rw [hname] at hgo
    exact hgo.elim (fun hnot => hnot hdirectory) nofun
  · rw [if_neg hgo]
    have hdirectory : t.node? place = some .directory := not_not.1 (not_or.1 hgo).1
    have hname : isName name = true := by simpa using (not_or.1 hgo).2
    rw [and_iff_right hdirectory, and_iff_right hname]
    by_cases hback : name = ".."
    · rw [if_pos hback, if_pos hback, Option.some.injEq, eq_comm]
    · rw [if_neg hback, if_neg hback, Option.some.injEq, eq_comm]

/-- Nothing is new at the root. -/
theorem ne_nil_of_node?_ne (h : t.node? place ≠ some .directory) : place ≠ [] := by
  rintro rfl
  exact h rfl

/-- Where a directory is put in place of nothing, it is new. -/
theorem extends_put (h : t.node? place = none) : t.Extends (t.put place .directory) := by
  have hplace : place ≠ [] := ne_nil_of_node?_ne (by rw [h]; nofun)
  refine ⟨rfl, fun q => ?_⟩
  rw [node?_put hplace]
  by_cases hq : q = place
  · rw [if_pos hq, hq]
    exact .inr ⟨h, rfl⟩
  · rw [if_neg hq]
    exact .inl rfl

/-- Going on from a directory, a directory may be new. If the way is free, it leads on, and ends in
a directory. -/
theorem extends_enter (t : FileTree) (place : Place) (name : String) :
    t.Extends (t.enter place name).1 ∧ ∀ next, (t.enter place name).2 = some next →
      t.node? place = some .directory ∧ isName name = true ∧ next = place.go name ∧
        (t.enter place name).1.node? next = some .directory := by
  unfold enter
  split
  · exact ⟨.refl t, nofun⟩
  · next next hstep =>
    obtain ⟨hdirectory, hname, hnext⟩ := step_eq_some_iff.1 hstep
    split
    · next hnode =>
      refine ⟨.refl t, fun q hq => ?_⟩
      cases hq
      exact ⟨hdirectory, hname, hnext, hnode⟩
    · exact ⟨.refl t, nofun⟩
    · next hnode =>
      have hne : next ≠ [] := ne_nil_of_node?_ne (by rw [hnode]; nofun)
      refine ⟨extends_put hnode, fun q hq => ?_⟩
      cases hq
      exact ⟨hdirectory, hname, hnext, by rw [node?_put hne, if_pos rfl]⟩

/-- Going a way, directories may be new. If the way is free, it is open afterwards and leads from a
directory to one. -/
theorem extends_makeWay (t : FileTree) (place : Place) (names : List String) :
    t.Extends (t.makeWay place names).1 ∧ ∀ d, (t.makeWay place names).2 = some d →
      d = place.follow names ∧ (t.makeWay place names).1.Leads place names ∧
        (t.node? place = some .directory →
          (t.makeWay place names).1.node? d = some .directory) := by
  induction names generalizing t place with
  | nil =>
    refine ⟨.refl t, fun d hd => ?_⟩
    cases hd
    exact ⟨rfl, trivial, id⟩
  | cons name names ih =>
    obtain ⟨hextends, hfree⟩ := t.extends_enter place name
    unfold makeWay
    generalize t.enter place name = entered at hextends hfree
    obtain ⟨t', next⟩ := entered
    cases next with
    | none => exact ⟨hextends, nofun⟩
    | some next =>
      obtain ⟨hdirectory, hname, hnext, hnode⟩ := hfree next rfl
      obtain ⟨hrest, hway⟩ := ih t' next
      refine ⟨hextends.trans hrest, fun d hd => ?_⟩
      obtain ⟨hplace, hleads, hend⟩ := hway d hd
      refine ⟨?_, ⟨(hextends.trans hrest).directory hdirectory, hname, ?_⟩, fun _ => hend hnode⟩
      · rw [hplace, hnext]
        rfl
      · rw [← hnext]
        exact hleads

/-! ## New files -/

/-- What a tree is like after a file was written by a path. -/
structure Wrote (t : FileTree) (p : TreePath) (content : String) (t' : FileTree) : Prop where
  /-- The working directory is the same. -/
  workingDirectory : t'.workingDirectory = t.workingDirectory
  /-- The file stands where the path leads. -/
  node?_placeOf : t'.node? (t.placeOf p) = some (.file content)
  /-- Elsewhere only directories may be new. -/
  node?_of_ne : ∀ q, q ≠ t.placeOf p → SameOrNew (t.node? q) (t'.node? q)
  /-- Directories stay. -/
  directory : ∀ q, t.node? q = some .directory → t'.node? q = some .directory
  /-- The path can be looked up. -/
  leads : t'.Leads (t.start p) p.names
  /-- The path is not too long. -/
  fits : p.fits = true

/-- A file that is written in a directory stands there, at a place where no directory was. -/
theorem writeIn_eq_some_iff {directory : Place} : t.writeIn directory name content = some t' ↔
    t.node? directory = some .directory ∧ isName name = true ∧ name ≠ ".." ∧
      t.node? (directory.go name) ≠ some .directory ∧
        t' = t.put (directory.go name) (.file content) := by
  unfold writeIn
  cases hstep : t.step directory name with
  | none =>
    refine iff_of_false nofun fun ⟨hdirectory, hname, _⟩ => ?_
    rw [step_eq_some_iff.2 ⟨hdirectory, hname, rfl⟩] at hstep
    cases hstep
  | some place =>
    obtain ⟨hdirectory, hname, rfl⟩ := step_eq_some_iff.1 hstep
    simp only [hdirectory, hname, true_and]
    by_cases hfree : name = ".." ∨ t.node? (directory.go name) = some .directory
    · rw [if_pos hfree]
      exact iff_of_false nofun fun ⟨hback, hnode, _⟩ => hfree.elim hback hnode
    · rw [if_neg hfree, Option.some.injEq, eq_comm, and_iff_right (not_or.1 hfree).1,
        and_iff_right (not_or.1 hfree).2]

/-- A file is written, or the tree only has new directories. -/
theorem write_cases (t : FileTree) (p : TreePath) (content : String) :
    ((t.write p content).2 = true ∧ t.Wrote p content (t.write p content).1) ∨
      ((t.write p content).2 = false ∧ t.Extends (t.write p content).1) := by
  obtain ⟨hextends, hfree⟩ := t.extends_makeWay (t.start p) p.parent.names
  unfold write
  generalize t.makeWay (t.start p) p.parent.names = way at hextends hfree
  obtain ⟨t₁, d⟩ := way
  split
  · exact .inr ⟨rfl, .refl t⟩
  · cases d with
    | none => exact .inr ⟨rfl, hextends⟩
    | some d =>
      obtain ⟨hd, hleads, -⟩ := hfree d rfl
      dsimp only
      split
      · exact .inr ⟨rfl, hextends⟩
      · next name hlast =>
        obtain ⟨hlast, hfits⟩ := Option.filter_eq_some_iff.1 hlast
        have hnames : p.parent.names ++ [name] = p.names := List.dropLast_append_getLast? name hlast
        split
        · next t₂ hwrite =>
          obtain ⟨hdirectory, hname, hback, hnode, rfl⟩ := writeIn_eq_some_iff.1 hwrite
          have hplace : t.placeOf p = d.go name := by
            rw [placeOf, ← hnames, Place.follow_concat, hd]
          have hne : d.go name ≠ [] := ne_nil_of_node?_ne hnode
          -- No directory was where the file is put.
          have hdirectories : ∀ q, t₁.node? q = some .directory →
              (t₁.put (d.go name) (.file content)).node? q = some .directory := by
            intro q hq
            have hq' : q ≠ d.go name := by
              rintro rfl
              exact hnode hq
            rw [node?_put hne, if_neg hq', hq]
          have hway := (hleads.mono hdirectories).concat (hd ▸ hdirectories d hdirectory) hname
          refine .inl ⟨rfl, hextends.workingDirectory, ?_, fun q hq => ?_,
            fun q hq => hdirectories q (hextends.directory hq), hnames ▸ hway, hfits⟩
          · rw [hplace, node?_put hne, if_pos rfl]
          · rw [node?_put hne, if_neg (hplace ▸ hq)]
            exact hextends.node? q
        · exact .inr ⟨rfl, hextends⟩

/-! ## Several files -/

/-- The writes that are carried out: those before the first one that fails. -/
def carriedOut (t : FileTree) : List (TreePath × String) → List (TreePath × String)
  | [] => []
  | (p, content) :: writes =>
    match t.write p content with
    | (t, true) => (p, content) :: carriedOut t writes
    | (_, false) => []

/-- What is written last to a place, if anything is. -/
def lastTo (t : FileTree) (place : Place) (writes : List (TreePath × String)) : Option String :=
  (writes.filter fun w => t.placeOf w.1 = place).getLast?.map (·.2)

/-- A first write counts where no later one goes to the same place. -/
theorem lastTo_cons (t : FileTree) (place : Place) (p : TreePath) (content : String)
    (writes : List (TreePath × String)) :
    t.lastTo place ((p, content) :: writes) =
      (t.lastTo place writes).or (if t.placeOf p = place then some content else none) := by
  unfold lastTo
  by_cases hp : t.placeOf p = place
  · rw [List.filter_cons_of_pos (by simpa using hp), List.getLast?_cons, if_pos hp]
    cases (writes.filter fun w => t.placeOf w.1 = place).getLast? with
    | none => rfl
    | some w => rfl
  · rw [List.filter_cons_of_neg (by simpa using hp), if_neg hp, Option.or_none]

/-- To the place of a write something is written last. -/
theorem exists_lastTo {writes : List (TreePath × String)} {w : TreePath × String}
    (hw : w ∈ writes) : ∃ content, t.lastTo (t.placeOf w.1) writes = some content := by
  have hmem : w ∈ writes.filter fun w' => t.placeOf w'.1 = t.placeOf w.1 :=
    List.mem_filter.2 ⟨hw, by simp⟩
  obtain ⟨last, hlast⟩ := Option.ne_none_iff_exists'.1
    (mt List.getLast?_eq_none_iff.1 (List.ne_nil_of_mem hmem))
  exact ⟨last.2, by rw [lastTo, hlast, Option.map_some]⟩

/-- What is written last to a place is written there. -/
theorem mem_of_lastTo {writes : List (TreePath × String)} {q : Place}
    (h : t.lastTo q writes = some content) : ∃ p, (p, content) ∈ writes ∧ t.placeOf p = q := by
  obtain ⟨w, hlast, rfl⟩ := Option.map_eq_some_iff.1 h
  obtain ⟨hw, hplace⟩ := List.mem_filter.1 (List.mem_of_getLast? hlast)
  exact ⟨w.1, hw, of_decide_eq_true hplace⟩

/-- Only writes are carried out. -/
theorem mem_of_mem_carriedOut {writes : List (TreePath × String)} {w : TreePath × String}
    (h : w ∈ t.carriedOut writes) : w ∈ writes := by
  induction writes generalizing t with
  | nil => cases h
  | cons first writes ih =>
    obtain ⟨p, content⟩ := first
    unfold carriedOut at h
    generalize t.write p content = result at h
    obtain ⟨t', done⟩ := result
    cases done with
    | false => cases h
    | true =>
      rcases List.mem_cons.1 h with rfl | hlater
      · exact List.mem_cons_self
      · exact List.mem_cons_of_mem _ (ih hlater)

/-- If all writes succeed, they are carried out. -/
theorem carriedOut_eq {writes : List (TreePath × String)} (h : (t.writeAll writes).2 = true) :
    t.carriedOut writes = writes := by
  induction writes generalizing t with
  | nil => rfl
  | cons w writes ih =>
    obtain ⟨p, content⟩ := w
    unfold writeAll at h
    unfold carriedOut
    generalize t.write p content = result at h
    obtain ⟨t', done⟩ := result
    cases done with
    | false => cases h
    | true => exact congrArg _ (ih h)

/-- What a tree is like after several files were written. -/
structure WroteAll (t : FileTree) (writes : List (TreePath × String)) (t' : FileTree) : Prop where
  /-- The working directory is the same. -/
  workingDirectory : t'.workingDirectory = t.workingDirectory
  /-- What is written last to a place stands there. -/
  node?_of_lastTo : ∀ q content, t.lastTo q writes = some content →
    t'.node? q = some (.file content)
  /-- Elsewhere only directories may be new. -/
  node?_of_none : ∀ q, t.lastTo q writes = none → SameOrNew (t.node? q) (t'.node? q)
  /-- Directories stay. -/
  directory : ∀ q, t.node? q = some .directory → t'.node? q = some .directory
  /-- The paths can be looked up. -/
  leads : ∀ w ∈ writes, t'.Leads (t.start w.1) w.1.names ∧ w.1.fits = true

/-- Several files are written after one. -/
theorem Wrote.cons {t t' t'' : FileTree} {p : TreePath} {content : String}
    {writes : List (TreePath × String)} (hwrote : t.Wrote p content t')
    (hrest : t'.WroteAll writes t'') : t.WroteAll ((p, content) :: writes) t'' := by
  have hlast : ∀ q, t'.lastTo q writes = t.lastTo q writes := by
    intro q
    simp only [lastTo, placeOf_congr hwrote.workingDirectory]
  refine ⟨hrest.workingDirectory.trans hwrote.workingDirectory, fun q c hq => ?_,
    fun q hq => ?_, fun q hq => hrest.directory q (hwrote.directory q hq), ?_⟩
  · rw [lastTo_cons, Option.or_eq_some_iff] at hq
    rcases hq with hlater | ⟨hnone, hfirst⟩
    · exact hrest.node?_of_lastTo q c (by rw [hlast, hlater])
    · -- No later write goes there, so the file stays.
      obtain ⟨rfl, hc⟩ := Option.ite_none_right_eq_some.1 hfirst
      cases hc
      rcases hrest.node?_of_none _ (by rw [hlast, hnone]) with hsame | ⟨hempty, -⟩
      · rw [hsame, hwrote.node?_placeOf]
      · rw [hwrote.node?_placeOf] at hempty
        cases hempty
  · rw [lastTo_cons, Option.or_eq_none_iff] at hq
    obtain ⟨hlater, hfirst⟩ := hq
    have hne : q ≠ t.placeOf p := by
      rintro rfl
      rw [if_pos rfl] at hfirst
      cases hfirst
    exact (hwrote.node?_of_ne q hne).trans (hrest.node?_of_none q (by rw [hlast, hlater]))
  · refine List.forall_mem_cons.2 ⟨⟨hwrote.leads.mono hrest.directory, hwrote.fits⟩, ?_⟩
    intro w hw
    rw [← start_congr hwrote.workingDirectory]
    exact hrest.leads w hw

/-- What is carried out is written. -/
theorem wroteAll (t : FileTree) (writes : List (TreePath × String)) :
    t.WroteAll (t.carriedOut writes) (t.writeAll writes).1 := by
  induction writes generalizing t with
  | nil => exact ⟨rfl, nofun, fun _ _ => .inl rfl, fun _ => id, nofun⟩
  | cons w writes ih =>
    obtain ⟨p, content⟩ := w
    have hcases := t.write_cases p content
    unfold writeAll carriedOut
    generalize t.write p content = result at hcases
    obtain ⟨t', done⟩ := result
    rcases hcases with ⟨rfl, hwrote⟩ | ⟨rfl, hextends⟩
    · exact hwrote.cons (ih t')
    · -- Nothing is carried out, and only directories are new.
      exact ⟨hextends.workingDirectory, nofun, fun q _ => hextends.node? q,
        fun q hq => hextends.directory hq, nofun⟩

end FileTree

end ModuleAssembly
