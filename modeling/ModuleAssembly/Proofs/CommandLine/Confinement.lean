import ModuleAssembly.CommandLine.Run
import ModuleAssembly.Proofs.CommandLine.Places

/-!
# Files outside the output directory

The path of a file is taken as it is, so it may lead out of the directory that the files are to be
written under. It does not exactly if the path counts from this directory and, where it leads back
out of it, leads in again by the same names, or if it counts from the root and leads in by all its
names (`Path.prefix_resolve_iff`). The files that are written, in the directory or not, are those
that stand where the paths lead (`writeAll_target`).
-/

namespace ModuleAssembly

/-! ## Ways -/

/-- A way to go: first some steps back, and then names. -/
structure Way where
  /-- The number of steps back. -/
  back : Nat := 0
  /-- The names. -/
  names : List String := []
deriving DecidableEq, Repr, Inhabited

namespace Way

/-- Goes on by one segment of a path. A step back takes the last name away, if there is one. -/
def step (w : Way) (segment : String) : Way :=
  if segment = "" ∨ segment = "." then w
  else if segment = ".." then
    if w.names = [] then { w with back := w.back + 1 } else { w with names := w.names.dropLast }
  else { w with names := w.names ++ [segment] }

/-- The way of the segments of a path. -/
def ofSegments (segments : List String) : Way :=
  segments.foldl step {}

/-- Where a way leads from a directory. -/
def goFrom (base : List String) (w : Way) : List String :=
  base.take (base.length - w.back) ++ w.names

/-- One segment leads on from where a way leads. -/
theorem step_goFrom (base : List String) (w : Way) (segment : String) :
    Path.step (w.goFrom base) segment = (w.step segment).goFrom base := by
  unfold Path.step step
  by_cases hstay : segment = "" ∨ segment = "."
  · rw [if_pos hstay, if_pos hstay]
  · rw [if_neg hstay, if_neg hstay]
    by_cases hback : segment = ".."
    · rw [if_pos hback, if_pos hback]
      by_cases hnames : w.names = []
      · have hlength : min (base.length - w.back) base.length = base.length - w.back := by omega
        rw [if_pos hnames, goFrom, goFrom, hnames, List.append_nil, List.append_nil,
          List.dropLast_eq_take, List.take_take, List.length_take, hlength]
        congr 1
        dsimp only
        omega
      · rw [if_neg hnames, goFrom, goFrom, List.dropLast_append_of_ne_nil hnames]
    · rw [if_neg hback, if_neg hback, goFrom, goFrom, List.append_assoc]

/-- The segments of a path lead where their way does. -/
theorem resolve_eq_goFrom (base segments : List String) :
    Path.resolve base segments = (ofSegments segments).goFrom base := by
  have hfrom : ∀ w : Way, segments.foldl Path.step (w.goFrom base) =
      (segments.foldl step w).goFrom base := by
    induction segments with
    | nil => exact fun _ => rfl
    | cons segment segments ih =>
      intro w
      rw [List.foldl_cons, List.foldl_cons, step_goFrom, ih]
  have hstart : base = goFrom base {} := by simp [goFrom]
  rw [Path.resolve, ofSegments, ← hfrom, ← hstart]

end Way

namespace Path

/-- Whether a path that is counted from a directory leads to a place in it. From the root all names
of the directory have to come first; from the directory itself, those that the way goes back by. -/
def StaysIn (home : List String) (path : String) : Prop :=
  let way := Way.ofSegments (segments path)
  if (Text.after? "/" path).isSome then home <+: way.names
  else home.drop (home.length - way.back) <+: way.names

/-- A path leads to a place in a directory exactly if it stays in it. -/
theorem prefix_resolve_iff (home : List String) (path : String) :
    home <+: resolve (origin home path) (segments path) ↔ StaysIn home path := by
  rw [Way.resolve_eq_goFrom]
  unfold StaysIn origin Way.goFrom
  generalize Way.ofSegments (segments path) = way
  cases (Text.after? "/" path).isSome with
  | true => rw [if_pos rfl, if_pos rfl, List.take_nil, List.nil_append]
  | false =>
    have hsplit : home.take (home.length - way.back) ++ home.drop (home.length - way.back) <+:
        home.take (home.length - way.back) ++ way.names ↔
          home.drop (home.length - way.back) <+: way.names := List.prefix_append_right_inj _
    rw [List.take_append_drop] at hsplit
    exact hsplit

instance (home : List String) (path : String) : Decidable (StaysIn home path) :=
  decidable_of_iff _ (prefix_resolve_iff home path)

end Path

/-! ## Written files -/

namespace CommandLine.Command

/-- The files that are written stand where their paths lead from the output directory, and nothing
else is new but directories. Such a place lies in the output directory exactly if the path stays in
it. -/
theorem writeAll_target (tree : FileTree) (output : String) (files : List AssembledFile) :
    let home := Path.resolve (Path.origin tree.workingDirectory output) (Path.segments output)
    let place (f : AssembledFile) := Path.resolve (Path.origin home f.path) (Path.segments f.path)
    let writes := files.map fun f => (target output f.path, f.content)
    let after := (tree.writeAll writes).1
    (∀ f ∈ files, (target output f.path, f.content) ∈ tree.carriedOut writes →
        ∃ content, after.node? (place f) = some (.file content)) ∧
      (∀ q content, after.node? q = some (.file content) → tree.node? q = some (.file content) ∨
        ∃ f ∈ files, (target output f.path, f.content) ∈ tree.carriedOut writes ∧ place f = q) ∧
      ∀ f ∈ files, home <+: place f ↔ Path.StaysIn home f.path := by
  intro home place writes after
  have hwrote := tree.wroteAll writes
  have hplace : ∀ f, tree.placeOf (target output f.path) = place f := fun f => by
    rw [target, FileTree.placeOf_join, FileTree.placeOf_ofText]
  refine ⟨fun f _ hf => ?_, fun q content hq => ?_, fun f _ => Path.prefix_resolve_iff home f.path⟩
  · obtain ⟨content, hlast⟩ := FileTree.exists_lastTo hf
    rw [← hplace]
    exact ⟨content, hwrote.node?_of_lastTo _ _ hlast⟩
  · cases hlast : tree.lastTo q (tree.carriedOut writes) with
    | none =>
      rcases hwrote.node?_of_none q hlast with hsame | ⟨-, hnew⟩
      · exact .inl (hsame ▸ hq)
      · rw [hnew] at hq
        cases hq
    | some last =>
      obtain ⟨p, hp, hpq⟩ := FileTree.mem_of_lastTo hlast
      obtain ⟨f, hf, hfp⟩ := List.mem_map.1 (FileTree.mem_of_mem_carriedOut hp)
      cases hfp
      exact .inr ⟨f, hf, hp, (hplace f).symm.trans hpq⟩

/-- A path that comes back to the output directory, one that leaves it for the directory beside it,
and one from the root, all of which are written. -/
theorem writeAll_target_of_mixed :
    let tree := FileTree.ofFiles ["work"] []
    let inside : AssembledFile := ⟨"../out/./a.ts", "a", [], []⟩
    let beside : AssembledFile := ⟨"b/../../other/b.ts", "b", [], []⟩
    let absolute : AssembledFile := ⟨"/c.ts", "c", [], []⟩
    let files := [inside, beside, absolute]
    let after := (tree.writeAll (files.map fun f => (target "out" f.path, f.content))).1
    (∀ f ∈ files, ∃ content, after.node? (Path.resolve (Path.origin ["work", "out"] f.path)
        (Path.segments f.path)) = some (.file content)) ∧
      Path.StaysIn ["work", "out"] inside.path ∧ ¬Path.StaysIn ["work", "out"] beside.path ∧
        ¬Path.StaysIn ["work", "out"] absolute.path := by
  intro tree inside beside absolute files after
  have hdone : (tree.writeAll (files.map fun f => (target "out" f.path, f.content))).2 = true := by
    decide +kernel
  refine ⟨fun f hf => ?_, by decide +kernel, by decide +kernel, by decide +kernel⟩
  refine (writeAll_target tree "out" files).1 f hf ?_
  rw [FileTree.carriedOut_eq hdone]
  exact List.mem_map_of_mem hf

/-- A file is written outside the output directory if its path leads there. -/
theorem writeAll_target_outside :
    let tree := FileTree.ofFiles ["work"] []
    let f : AssembledFile := ⟨"../escape.ts", "", [], []⟩
    let after := (tree.writeAll [(target "out" f.path, f.content)]).1
    tree.node? ["work", "escape.ts"] = none ∧
      after.node? ["work", "escape.ts"] = some (.file "") ∧
      ¬Path.resolve (Path.origin tree.workingDirectory "out") (Path.segments "out") <+:
        ["work", "escape.ts"] := by
  decide +kernel

end CommandLine.Command

end ModuleAssembly
