/-
# What a status reports

The status of a worktree compares three snapshots.  Snapshots are compared path by path
(`Snapshot.mem_differences_iff`), a worktree's snapshot says of each path what a look at the node there
finds (`Worktree.get?_snapshot`), and so a path is reported exactly if it was staged and not committed,
or if the file there is not the staged one and the path is either known to the index or not ignored
(`Worktree.mem_changedPaths_iff`).  There is a status exactly if the index is not broken and every
directory outside of the repository's own data can be listed (`Worktree.statusError?_eq_none_iff`).
-/
import CrateBump.Git.Worktree
import CrateBump.Proofs.Walks

namespace CrateBump.Git

/-! ## Snapshots path by path -/

/-- Two snapshots differ in the paths they say different things about. -/
theorem Snapshot.mem_differences_iff {α : Type} [DecidableEq α] {s t : Snapshot α} {path : Text} :
    path ∈ Snapshot.differences s t ↔ s.get? path ≠ t.get? path := by
  have hsilent : ∀ {u : Snapshot α}, path ∉ u.paths → u.get? path = none := by
    intro u hu
    refine List.lookup_eq_none_iff.2 fun entry hentry => ?_
    simp only [bne_iff_ne, ne_eq]
    rintro rfl
    exact hu (List.mem_map_of_mem hentry)
  rw [Snapshot.differences, List.mem_filter, Text.distinct, List.mem_eraseDups, List.mem_append]
  constructor
  · rintro ⟨-, hne⟩
    simpa using hne
  · intro hne
    refine ⟨?_, by simpa using hne⟩
    by_contra hnot
    rw [not_or] at hnot
    exact hne (by rw [hsilent hnot.1, hsilent hnot.2])

/-! ## The files of a worktree -/

namespace Worktree

variable {wt : Worktree} {fs : FileSystem}

/-- What a look at a path of the worktree finds, the repository's own data included. -/
def sightAt? (wt : Worktree) (fs : FileSystem) (path : Text) : Option Sight :=
  (fs.node? (wt.top ++ Text.splitOn slash path)).bind sightOf?

/-- A look at the worktree finds what can be seen at each path, those in the data of a repository
left out. -/
theorem mem_snapshot_iff (hfs : fs.Proper) {path : Text} {sight : Sight} :
    (path, sight) ∈ wt.snapshot fs
      ↔ gitName ∉ Text.splitOn slash path ∧ wt.sightAt? fs path = some sight := by
  rw [snapshot, List.mem_filterMap]
  constructor
  · rintro ⟨⟨loc, node⟩, hmem, hentry⟩
    dsimp only at hentry
    split at hentry
    · cases hentry
    next found hsight =>
    split at hentry
    · next hcond =>
      obtain ⟨rfl, rfl⟩ := Prod.mk.inj (Option.some.inj hentry)
      simp only [Bool.and_eq_true, Bool.not_eq_true', List.isPrefixOf_iff_prefix] at hcond
      obtain ⟨⟨⟨names, rfl⟩, hnames⟩, hgit⟩ := hcond
      rw [List.drop_left] at hnames hgit ⊢
      have hnode : fs.node? (wt.top ++ names) = some node := hfs.node?_eq_some_iff.2 hmem
      have hslash : ∀ t ∈ names, slash ∉ t := fun t ht =>
        (hfs.isName hnode t (List.mem_append_right _ ht)).slash_not_mem
      have hsplit : Text.splitOn slash (Text.joinWith [slash] names) = names :=
        Text.splitOn_joinWith (by simpa using hnames) hslash
      rw [sightAt?, hsplit, hnode]
      exact ⟨by simpa using hgit, hsight⟩
    · cases hentry
  · rintro ⟨hgit, hsight⟩
    obtain ⟨node, hnode, hnodeSight⟩ := Option.bind_eq_some_iff.1 hsight
    refine ⟨(wt.top ++ Text.splitOn slash path, node), hfs.node?_eq_some_iff.1 hnode, ?_⟩
    have hne := Text.splitOn_ne_nil slash path
    have hpre : wt.top.isPrefixOf (wt.top ++ Text.splitOn slash path) = true :=
      List.isPrefixOf_iff_prefix.2 (List.prefix_append _ _)
    simp [hnodeSight, hpre, hne, hgit, Text.joinWith_splitOn]

/-- A worktree's snapshot has what a look at a path finds, except for the repository's own data. -/
theorem get?_snapshot (hfs : fs.Proper) (path : Text) :
    (wt.snapshot fs).get? path
      = if gitName ∈ Text.splitOn slash path then none else wt.sightAt? fs path := by
  have hmem : ∀ sight, (wt.snapshot fs).get? path = some sight
      ↔ gitName ∉ Text.splitOn slash path ∧ wt.sightAt? fs path = some sight := by
    intro sight
    rw [← mem_snapshot_iff hfs]
    refine lookup_eq_some_iff_mem fun p b c hb hc => ?_
    have hb := ((mem_snapshot_iff hfs).1 hb).2
    rw [((mem_snapshot_iff hfs).1 hc).2] at hb
    exact (Option.some.inj hb).symm
  ext sight
  rw [hmem]
  split
  · next hgit => simp [hgit]
  · next hgit => simp [hgit]

/-! ## Directories that can be listed -/

/-- A directory can be listed with what its names stand for: its owner may read it and, unless it is
empty, search it. -/
structure Listable (fs : FileSystem) (loc : Location) (mode : Mode) : Prop where
  read : mode.canRead = true
  search : mode.canSearch = true ∨ ∀ name, fs.node? (loc ++ [name]) = none

theorem mem_names_iff {loc : Location} {name : Text} :
    name ∈ fs.names loc ↔ ∃ node, (loc ++ [name], node) ∈ fs.nodes := by
  rw [FileSystem.names, Text.sort, List.mem_mergeSort, Text.distinct, List.mem_eraseDups,
    List.mem_filterMap]
  constructor
  · rintro ⟨⟨l, node⟩, hmem, hentry⟩
    dsimp only at hentry
    split at hentry
    · next hparent =>
      refine ⟨node, ?_⟩
      rw [← hparent, List.dropLast_append_getLast? name hentry]
      exact hmem
    · cases hentry
  · rintro ⟨node, hmem⟩
    exact ⟨_, hmem, by simp⟩

/-- A directory can be listed exactly if nothing keeps a reader from its names and their nodes. -/
theorem listingError?_eq_none_iff (hfs : fs.Proper) {path : Text} {loc : Location} {mode : Mode}
    (hnode : fs.node? loc = some (.directory mode)) :
    listingError? fs path loc = none ↔ Listable fs loc mode := by
  have hempty : fs.names loc = [] ↔ ∀ name, fs.node? (loc ++ [name]) = none := by
    rw [List.eq_nil_iff_forall_not_mem]
    refine forall_congr' fun name => ?_
    rw [mem_names_iff, Option.eq_none_iff_forall_ne_some, not_exists]
    exact forall_congr' fun node => not_congr hfs.node?_eq_some_iff.symm
  simp only [listingError?, hnode]
  by_cases hread : mode.canRead = true
  · by_cases hsearch : mode.canSearch = true
    · simp only [hread, hsearch, Bool.not_true, Bool.false_eq_true, if_false, if_true, true_iff]
      exact ⟨hread, Or.inl hsearch⟩
    · simp only [hread, hsearch, Bool.not_true, Bool.false_eq_true, if_false, Option.map_eq_none_iff,
        List.head?_eq_none_iff, hempty]
      exact ⟨fun h => ⟨hread, Or.inr h⟩, fun h => h.search.resolve_left hsearch⟩
  · simp only [hread, Bool.not_false, if_true, reduceCtorEq, false_iff]
    exact fun h => hread h.read

theorem mem_directories_iff (hfs : fs.Proper) {names : List Text} :
    names ∈ wt.directories fs
      ↔ gitName ∉ names ∧ ∃ mode, fs.node? (wt.top ++ names) = some (.directory mode) := by
  rw [directories, List.mem_filterMap]
  constructor
  · rintro ⟨⟨loc, node⟩, hmem, hentry⟩
    dsimp only at hentry
    split at hentry
    · next mode =>
      split at hentry
      · next hcond =>
        obtain rfl := Option.some.inj hentry
        simp only [Bool.and_eq_true, Bool.not_eq_true', List.isPrefixOf_iff_prefix] at hcond
        obtain ⟨⟨names, rfl⟩, hgit⟩ := hcond
        rw [List.drop_left] at hgit ⊢
        exact ⟨by simpa using hgit, mode, hfs.node?_eq_some_iff.2 hmem⟩
      · cases hentry
    · cases hentry
  · rintro ⟨hgit, mode, hnode⟩
    refine ⟨_, hfs.node?_eq_some_iff.1 hnode, ?_⟩
    have hpre : wt.top.isPrefixOf (wt.top ++ names) = true :=
      List.isPrefixOf_iff_prefix.2 (List.prefix_append _ _)
    simp [hpre, hgit]

theorem first?_eq_none_iff {entries : List (List Text × FileError)} :
    first? entries = none ↔ entries = [] := by
  cases entries with
  | nil => simp [first?]
  | cons entry rest =>
    rw [first?]
    split <;> simp

/-- A status can be made exactly if the index is not broken and every directory can be listed. -/
theorem statusError?_eq_none_iff_unlisted {index : Snapshot} :
    wt.statusError? fs index = none
      ↔ indexError? fs wt.gitDir = none ∧ ∀ names ∈ wt.directories fs,
        listingError? fs (wt.pathTo names) (wt.top ++ names) = none := by
  unfold statusError?
  cases indexError? fs wt.gitDir with
  | some e => simp
  | none =>
    simp [first?_eq_none_iff, unlisted, List.filterMap_eq_nil_iff]

/-- **There is a status exactly if the index is not broken and all directories can be listed**, those
of the repository's own data left out. -/
theorem statusError?_eq_none_iff (hfs : fs.Proper) {index : Snapshot} :
    wt.statusError? fs index = none
      ↔ indexError? fs wt.gitDir = none
        ∧ ∀ names mode, gitName ∉ names → fs.node? (wt.top ++ names) = some (.directory mode) →
          Listable fs (wt.top ++ names) mode := by
  rw [statusError?_eq_none_iff_unlisted]
  simp only [mem_directories_iff hfs]
  refine and_congr_right fun _ => ⟨fun h names mode hgit hnode => ?_, ?_⟩
  · exact (listingError?_eq_none_iff hfs hnode).1 (h names ⟨hgit, mode, hnode⟩)
  · rintro h names ⟨hgit, mode, hnode⟩
    exact (listingError?_eq_none_iff hfs hnode).2 (h names mode hgit hnode)

/-! ## The status -/

/-- A path is reported as changed in the worktree exactly if it is not as in the index, and is in
the index or not ignored. -/
theorem mem_unstaged_iff {index : Snapshot} {path : Text} :
    path ∈ wt.unstaged fs index
      ↔ (index.get? path).map Sight.blob ≠ (wt.snapshot fs).get? path
        ∧ (index.get? path = none → wt.ignores fs path = false) := by
  rw [unstaged, List.mem_filter, Snapshot.mem_differences_iff, Snapshot.get?_seen]
  refine and_congr_right fun _ => ?_
  cases index.get? path with
  | none => simp [ignores]
  | some blob => simp

/-- **A path is reported if it is staged otherwise than committed, or found otherwise than staged; of
the paths that are not in the index only those are that are not ignored.** -/
theorem mem_changedPaths_iff {r : Repository} {path : Text} :
    path ∈ wt.changedPaths fs r
      ↔ r.headTree.get? path ≠ r.index.get? path
        ∨ (r.index.get? path).map Sight.blob ≠ (wt.snapshot fs).get? path
          ∧ (r.index.get? path = none → wt.ignores fs path = false) := by
  rw [changedPaths, Text.sort, List.mem_mergeSort, Text.distinct, List.mem_eraseDups,
    List.mem_append, Snapshot.mem_differences_iff, mem_unstaged_iff]

end Worktree

end CrateBump.Git
