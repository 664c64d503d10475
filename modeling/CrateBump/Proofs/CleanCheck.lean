/-
# The check before a release

A status says of each path how the index differs from the newest commit and the worktree from the
index.  The check goes through the paths of the status, keeps those that are changed and are not
allowed, and sorts what it kept: so its answer does not depend on the order in which the status lists
its paths.

Main statements: sorting makes one list of any two that hold the same texts once each
(`Text.sort_eq_of_mem_iff`), going through any listing of a status gives the answer of the check
(`Listing.sort_refused`), and the check passes exactly if every changed path is an allowed one, seen
from the top of the worktree (`checkClean_refuses_unrelated`).
-/
import CrateBump.Proofs.CommittedRelease
import Mathlib.Data.List.Sort

namespace CrateBump

/-! ## Ascending order -/

namespace Text

theorem le_iff {s t : Text} : le s t = true ↔ s ≤ t := by
  induction s generalizing t with
  | nil => simp [le]
  | cons a s ih =>
    cases t with
    | nil => simp [le]
    | cons b t => simp [le, ih, List.cons_le_cons_iff]

/-- Texts that are different from each other are sorted into strictly ascending order. -/
theorem pairwise_sort {ts : List Text} (h : ts.Nodup) : (sort ts).Pairwise (· < ·) := by
  have hsorted : (sort ts).Pairwise fun s t => le s t = true := by
    refine List.pairwise_mergeSort (fun s t u hst htu => ?_) (fun s t => ?_) ts
    · exact le_iff.2 (List.le_trans (le_iff.1 hst) (le_iff.1 htu))
    · rw [Bool.or_eq_true, le_iff, le_iff]
      exact List.le_total s t
  have hnodup : (sort ts).Nodup := (List.mergeSort_perm ts le).nodup_iff.2 h
  exact (hsorted.and hnodup).imp fun hst => Std.lt_of_le_of_ne (le_iff.1 hst.1) hst.2

theorem nodup_distinct (ts : List Text) : (distinct ts).Nodup := by
  rw [distinct]
  induction hn : ts.length using Nat.strong_induction_on generalizing ts with
  | h n ih =>
    cases ts with
    | nil => exact List.nodup_nil
    | cons t ts =>
      rw [List.eraseDups_cons, List.nodup_cons, List.mem_eraseDups]
      refine ⟨by simp, ih _ ?_ _ rfl⟩
      have := List.length_filter_le (fun s => !s == t) ts
      rw [List.length_cons] at hn
      omega

/-- Two lists of the same texts, each of them once, are sorted into the same list. -/
theorem sort_eq_of_mem_iff {ts sorted : List Text} (hts : ts.Nodup) (hsorted : sorted.Pairwise (· < ·))
    (h : ∀ t, t ∈ ts ↔ t ∈ sorted) : sort ts = sorted := by
  refine (pairwise_sort hts).eq_of_mem_iff hsorted fun t => ?_
  rw [sort, List.mem_mergeSort, h]

end Text

namespace Git

/-! ## The status of a path -/

/-- What a status says about one side of a path. -/
inductive StatusCode where
  | unmodified
  | untracked
  | modified
  | added
  | deleted
  deriving DecidableEq, Repr

/-- What a path has become from one snapshot to the next; `fresh` is said of a path that only the
second one has. -/
def StatusCode.between {α : Type} [DecidableEq α] (fresh : StatusCode) :
    Option α → Option α → StatusCode
  | none, none => unmodified
  | none, some _ => fresh
  | some _, none => deleted
  | some before, some after => if before = after then unmodified else modified

theorem StatusCode.between_eq_unmodified_iff {α : Type} [DecidableEq α] {fresh : StatusCode}
    (hfresh : fresh ≠ unmodified) {before after : Option α} : between fresh before after = unmodified ↔ before = after := by
  cases before <;> cases after <;> simp [between, hfresh]

/-- The status of a path: the index against the newest commit, and the worktree against the index. -/
structure FileStatus where
  staging : StatusCode
  worktree : StatusCode
  deriving DecidableEq, Repr

/-- Whether a status says that something was changed. -/
def FileStatus.isChanged (s : FileStatus) : Bool :=
  s.staging != .unmodified || s.worktree != .unmodified

namespace Worktree

variable {wt : Worktree} {fs : FileSystem} {r : Repository} {path : Text}

/-- The worktree against the index; ignored paths that are not in the index count as unmodified. -/
def worktreeCode (wt : Worktree) (fs : FileSystem) (r : Repository) (path : Text) : StatusCode :=
  if r.index.get? path = none ∧ wt.ignores fs path = true then .unmodified
  else .between .untracked ((r.index.get? path).map Sight.blob) ((wt.snapshot fs).get? path)

/-- The status of a path; one that is not tracked is so on both sides. -/
def status (wt : Worktree) (fs : FileSystem) (r : Repository) (path : Text) : FileStatus where
  staging :=
    if wt.worktreeCode fs r path = .untracked then .untracked
    else .between .added (r.headTree.get? path) (r.index.get? path)
  worktree := wt.worktreeCode fs r path

theorem worktreeCode_ne_unmodified_iff :
    wt.worktreeCode fs r path ≠ .unmodified
      ↔ (r.index.get? path).map Sight.blob ≠ (wt.snapshot fs).get? path
        ∧ (r.index.get? path = none → wt.ignores fs path = false) := by
  unfold worktreeCode
  split
  · next hignored => simp [hignored.1, hignored.2]
  · next hseen =>
    rw [ne_eq, StatusCode.between_eq_unmodified_iff (by decide), iff_self_and]
    intro _ hnone
    simpa [hnone] using hseen

/-- The status lists the paths that are changed on one of the two sides. -/
theorem isChanged_status_iff :
    (wt.status fs r path).isChanged = true ↔ path ∈ wt.changedPaths fs r := by
  rw [mem_changedPaths_iff, ← worktreeCode_ne_unmodified_iff, FileStatus.isChanged, status]
  by_cases huntracked : wt.worktreeCode fs r path = .untracked
  · simp [huntracked]
  · rw [if_neg huntracked, Bool.or_eq_true, bne_iff_ne, bne_iff_ne, ne_eq,
      StatusCode.between_eq_unmodified_iff (by decide)]

theorem pairwise_changedPaths : (wt.changedPaths fs r).Pairwise (· < ·) :=
  Text.pairwise_sort (Text.nodup_distinct _)

end Worktree

/-! ## Going through a status -/

/-- A listing of a status in some order: each path once, every changed one among them. -/
structure Listing (wt : Worktree) (fs : FileSystem) (r : Repository)
    (entries : List (Text × FileStatus)) : Prop where
  nodup : (entries.map Prod.fst).Nodup
  status : ∀ entry ∈ entries, entry.2 = wt.status fs r entry.1
  complete : ∀ path, (wt.status fs r path).isChanged = true → path ∈ entries.map Prod.fst

/-- The changed paths with their status. -/
def Worktree.statusEntries (wt : Worktree) (fs : FileSystem) (r : Repository) :
    List (Text × FileStatus) :=
  (wt.changedPaths fs r).map fun path => (path, wt.status fs r path)

/-- A status may be listed in any order. -/
theorem listing_of_perm {wt : Worktree} {fs : FileSystem} {r : Repository}
    {entries : List (Text × FileStatus)} (h : entries.Perm (wt.statusEntries fs r)) :
    Listing wt fs r entries := by
  have hpaths : (entries.map Prod.fst).Perm (wt.changedPaths fs r) := by
    have hmap := h.map Prod.fst
    rwa [Worktree.statusEntries, List.map_map, show Prod.fst ∘ _ = id from rfl, List.map_id] at hmap
  constructor
  case nodup => exact hpaths.nodup_iff.2 Worktree.pairwise_changedPaths.nodup
  case status =>
    intro entry hentry
    obtain ⟨path, -, rfl⟩ := List.mem_map.1 (h.mem_iff.1 hentry)
    rfl
  case complete =>
    intro path hpath
    exact hpaths.mem_iff.2 (Worktree.isChanged_status_iff.1 hpath)

/-- What is refused after one more entry of a status. -/
def refuse (allowed refused : List Text) (entry : Text × FileStatus) : List Text :=
  if entry.2.isChanged && !allowed.contains entry.1 then refused ++ [entry.1] else refused

/-- The answer to what is refused. -/
def answer : List Text → Except ReleaseError Unit
  | [] => .ok ()
  | paths => .error (.dirty paths)

/-- The answer after all entries of a status. -/
def verdict (allowed : List Text) (entries : List (Text × FileStatus)) : Except ReleaseError Unit :=
  answer (Text.sort (entries.foldl (refuse allowed) []))

theorem foldl_refuse (allowed refused : List Text) (entries : List (Text × FileStatus)) :
    entries.foldl (refuse allowed) refused
      = refused ++ (entries.filter fun e => e.2.isChanged && !allowed.contains e.1).map Prod.fst := by
  induction entries generalizing refused with
  | nil => simp
  | cons entry entries ih =>
    rw [List.foldl_cons, ih, refuse, List.filter_cons]
    split
    · rw [List.map_cons, List.append_assoc, List.singleton_append]
    · rfl

theorem mem_unrelated_iff {changed allowed : List Text} {path : Text} :
    path ∈ unrelated changed allowed ↔ path ∈ changed ∧ path ∉ allowed := by
  rw [unrelated, List.mem_filter]
  simp

/-- **Whatever the order of a status, the sorted refusals are the changed paths that are not
allowed.** -/
theorem Listing.sort_refused {wt : Worktree} {fs : FileSystem} {r : Repository}
    {entries : List (Text × FileStatus)} (h : Listing wt fs r entries) (allowed : List Text) :
    Text.sort (entries.foldl (refuse allowed) []) = unrelated (wt.changedPaths fs r) allowed := by
  rw [foldl_refuse, List.nil_append]
  refine Text.sort_eq_of_mem_iff ?_ (Worktree.pairwise_changedPaths.filter _) fun path => ?_
  · exact h.nodup.sublist (List.filter_sublist.map Prod.fst)
  · rw [mem_unrelated_iff, ← Worktree.isChanged_status_iff, List.mem_map]
    constructor
    · rintro ⟨entry, hentry, rfl⟩
      obtain ⟨hmem, hrefused⟩ := List.mem_filter.1 hentry
      rw [h.status entry hmem] at hrefused
      simpa using hrefused
    · rintro ⟨hchanged, hallowed⟩
      obtain ⟨entry, hmem, rfl⟩ := List.mem_map.1 (h.complete path hchanged)
      refine ⟨entry, List.mem_filter.2 ⟨hmem, ?_⟩, rfl⟩
      rw [h.status entry hmem]
      simp [hchanged, hallowed]

/-! ## Allowed paths -/

/-- A walk ends where each name is one that cleaning keeps. -/
theorem isElement_of_walks {fs : FileSystem} (hfs : fs.Proper) {loc stop : Location}
    {names : List Text} {k : Nat} (h : FileSystem.Walks fs loc names k stop)
    (hloc : ∀ t ∈ loc, Path.IsElement t) : ∀ t ∈ stop, Path.IsElement t := by
  induction h with
  | done loc => exact hloc
  | here _ _ ih => exact ih hloc
  | up _ _ ih => exact ih fun t ht => hloc t ((List.dropLast_prefix _).mem ht)
  | enter _ _ _ _ hnode _ _ ih => exact ih fun t ht => (hfs.isName hnode t ht).toIsElement
  | link _ _ _ _ _ _ ih =>
    refine ih fun t ht => ?_
    split at ht
    · cases ht
    · exact hloc t ht

/-- A path that leads below the top of a worktree is seen as the names from there. -/
theorem Worktree.relativeTo_of_below {wt : Worktree} {fs : FileSystem} (hfs : fs.Proper)
    {target : Text} {names : List Text} (hne : names ≠ [])
    (h : fs.realLocation target = .ok (wt.top ++ names)) :
    wt.relativeTo fs target = Text.joinWith [slash] names := by
  have helements : ∀ t ∈ wt.top ++ names, Path.IsElement t := by
    have hwalk := h
    rw [FileSystem.realLocation] at hwalk
    split at hwalk
    · cases hwalk
    · obtain ⟨k, -, hwalks⟩ := FileSystem.exists_walks hwalk
      exact isElement_of_walks hfs hwalks (by simp)
  rw [relativeTo_of_real h, FileSystem.relative_below
    (fun t ht => helements t (List.mem_append_left _ ht))
    (fun t ht => helements t (List.mem_append_right _ ht)) hne]

/-- What a path becomes, seen from the top of a worktree: made absolute from the working directory, it
counts as the names from the top to what it leads to, and as it is written if it leads nowhere. -/
structure SeenAs (env : Environment) (fs : FileSystem) (wt : Worktree) (path relative : Text) :
    Prop where
  /-- The working directory, if it is needed, can be told. -/
  absolute : ∃ target, fs.absolutePath env path = .ok target ∧ relative = wt.relativeTo fs target
  real : ∀ target names, fs.absolutePath env path = .ok target → names ≠ [] →
    fs.realLocation target = .ok (wt.top ++ names) → relative = Text.joinWith [slash] names
  unreal : ∀ target reason, fs.absolutePath env path = .ok target →
    fs.realLocation target = .error reason →
    relative = Path.relative (FileSystem.textOf wt.top) target

theorem seenAs_of_relativePath {env : Environment} {fs : FileSystem} (hfs : fs.Proper)
    {wt : Worktree} {path relative : Text} (h : wt.relativePath env fs path = .ok relative) :
    SeenAs env fs wt path relative := by
  obtain ⟨target, htarget, rfl⟩ := relativePath_eq_ok_iff.1 h
  refine ⟨⟨target, htarget, rfl⟩, fun target' names htarget' hne hreal => ?_,
    fun target' reason htarget' hreal => ?_⟩
  · obtain rfl := Except.ok.inj (htarget.symm.trans htarget')
    exact Worktree.relativeTo_of_below hfs hne hreal
  · obtain rfl := Except.ok.inj (htarget.symm.trans htarget')
    exact relativeTo_of_unreal hreal

/-- Only a path that does not start at the root needs the working directory. -/
theorem workingDirectory_of_relativePath {env : Environment} {fs : FileSystem} {wt : Worktree}
    {path : Text} {e : FileError} (h : wt.relativePath env fs path = .error e) :
    fs.workingDirectory env = .error e ∧ FileSystem.isRooted path = false := by
  unfold Worktree.relativePath FileSystem.absolutePath at h
  cases hrooted : FileSystem.isRooted path with
  | true =>
    rw [hrooted] at h
    cases h
  | false =>
    rw [hrooted] at h
    cases hdir : fs.workingDirectory env with
    | ok dir =>
      rw [hdir] at h
      cases h
    | error e' =>
      rw [hdir] at h
      cases h
      exact ⟨rfl, rfl⟩

/-! ## The answer of the check -/

section Check

variable {host : Host} {w : World} {root : Text} {wt : Worktree}

/-- What a check says about a worktree whose status can be read, where the allowed paths are
`relatives` from its top. -/
structure RefusesUnrelated (wt : Worktree) (w : World) (relatives : List Text)
    (result : Except ReleaseError Unit) : Prop where
  /-- It passes exactly if every changed path is an allowed one. -/
  passes_iff : result = .ok () ↔
    ∀ path, (wt.status w.files (w.repository wt.gitDir) path).isChanged = true → path ∈ relatives
  /-- Otherwise it names the changed paths that are not, each once and in ascending order. -/
  refuses : ∀ e, result = .error e → e.cause? = some .dirtyWorktree
    ∧ ∃ paths, e = .dirty paths ∧ paths.Pairwise (· < ·)
      ∧ ∀ path, path ∈ paths ↔ (wt.status w.files (w.repository wt.gitDir) path).isChanged = true
        ∧ path ∉ relatives
  /-- The order in which the status is gone through does not matter. -/
  any_order : ∀ entries, Listing wt w.files (w.repository wt.gitDir) entries →
    verdict relatives entries = result

theorem answer_eq_ok_iff {paths : List Text} : answer paths = .ok () ↔ paths = [] := by
  cases paths <;> simp [answer]

theorem answer_eq_error {paths : List Text} {e : ReleaseError} (h : answer paths = .error e) :
    e = .dirty paths := by
  cases paths with
  | nil => cases h
  | cons path paths => exact (Except.error.inj h).symm

variable {allowed relatives : List Text} (hopen : openWorktree host w.files root = .ok wt)
  (hpaths : relativePaths wt host.env w.files allowed = .ok relatives)
  (hstatus : wt.statusError? w.files (w.repository wt.gitDir).index = none)
include hopen hpaths hstatus

theorem checkClean_eq_answer :
    checkClean host w root allowed
      = answer (unrelated (wt.changedPaths w.files (w.repository wt.gitDir)) relatives) := by
  simp only [checkClean, hopen, hpaths, hstatus]
  rfl

theorem refusesUnrelated_checkClean :
    RefusesUnrelated wt w relatives (checkClean host w root allowed) := by
  have hrefused : ∀ path,
      path ∈ unrelated (wt.changedPaths w.files (w.repository wt.gitDir)) relatives
        ↔ (wt.status w.files (w.repository wt.gitDir) path).isChanged = true
          ∧ path ∉ relatives := by
    intro path
    rw [mem_unrelated_iff, Worktree.isChanged_status_iff]
  rw [checkClean_eq_answer hopen hpaths hstatus]
  constructor
  case passes_iff =>
    rw [answer_eq_ok_iff, List.eq_nil_iff_forall_not_mem]
    refine forall_congr' fun path => ?_
    rw [hrefused, not_and, not_not]
  case refuses =>
    intro e he
    rw [answer_eq_error he]
    exact ⟨rfl, _, rfl, Worktree.pairwise_changedPaths.filter _, hrefused⟩
  case any_order =>
    intro entries hentries
    rw [verdict, hentries.sort_refused]

omit hopen hpaths hstatus

/-- A bump goes on, or stops, in the world that the check was made in. -/
theorem bump_of_checkClean {ws : Workspace} {options : BumpOptions} {kind : Kind}
    {changes : List Change} (hplan : plan ws w.files kind = .ok changes)
    (hdry : options.dryRun = false) (hcommit : options.commit = true) (prompter : Prompter) :
    bump host ws prompter options kind w
      = match checkClean host w ws.dir (changes.map Change.path) with
        | .error e => { previewed host changes w with error? := some (.release e) }
        | .ok _ => confirmStage host ws prompter options (previewed host changes w) := by
  simp only [bump, hplan, hdry, releaseCheck, hcommit]
  rfl

/-- **The check refuses exactly the unrelated changes.**  In an opened worktree the allowed paths are
made absolute first, and the first that cannot be is reported.  A status that cannot be read is
reported as it is; it can be read exactly if the index is not broken and every directory can be listed.
Otherwise the check passes exactly if each changed path is an allowed one, and else names the others
in ascending order, in whatever order the status lists them.  An allowed path counts as what it leads
to, by the names from the top of the worktree, and as it is written if it leads nowhere.  A bump goes
on from the world that was checked. -/
theorem checkClean_refuses_unrelated (hfs : w.files.Proper)
    (hopen : openWorktree host w.files root = .ok wt) (allowed : List Text) :
    (∀ e, relativePaths wt host.env w.files allowed = .error e →
        checkClean host w root allowed = .error e
        ∧ ∃ path ∈ allowed, ∃ reason, w.files.workingDirectory host.env = .error reason
          ∧ FileSystem.isRooted path = false ∧ e = .unresolved path reason)
      ∧ (∀ relatives, relativePaths wt host.env w.files allowed = .ok relatives →
          List.Forall₂ (SeenAs host.env w.files wt) allowed relatives
          ∧ (∀ e, wt.statusError? w.files (w.repository wt.gitDir).index = some e →
              checkClean host w root allowed = .error (.status e))
          ∧ (wt.statusError? w.files (w.repository wt.gitDir).index = none →
              RefusesUnrelated wt w relatives (checkClean host w root allowed)))
      ∧ (wt.statusError? w.files (w.repository wt.gitDir).index = none
          ↔ indexError? w.files wt.gitDir = none
            ∧ ∀ names mode, gitName ∉ names →
              w.files.node? (wt.top ++ names) = some (.directory mode) →
              Worktree.Listable w.files (wt.top ++ names) mode)
      ∧ ∀ (ws : Workspace) (prompter : Prompter) (options : BumpOptions) (kind : Kind)
          (changes : List Change), plan ws w.files kind = .ok changes → options.dryRun = false →
          options.commit = true → ws.dir = root → changes.map Change.path = allowed →
          ∃ o : BumpOutcome, o.world = w ∧ bump host ws prompter options kind w
            = match checkClean host w root allowed with
              | .error e => { o with error? := some (.release e) }
              | .ok _ => confirmStage host ws prompter options o := by
  refine ⟨fun e hpaths => ⟨?_, ?_⟩, fun relatives hpaths => ⟨?_, fun e hstatus => ?_, fun hstatus =>
    refusesUnrelated_checkClean hopen hpaths hstatus⟩, Worktree.statusError?_eq_none_iff hfs, ?_⟩
  · simp only [checkClean, hopen, hpaths]
  · obtain ⟨path, hpath, reason, hreason, rfl⟩ := relativePaths_eq_error hpaths
    refine ⟨path, hpath, reason, ?_, ?_, rfl⟩
    · exact (workingDirectory_of_relativePath hreason).1
    · exact (workingDirectory_of_relativePath hreason).2
  · exact (forall₂_relativePaths hpaths).imp fun _ _ h => seenAs_of_relativePath hfs h
  · simp only [checkClean, hopen, hpaths, hstatus]
  · rintro ws prompter options kind changes hplan hdry hcommit rfl rfl
    exact ⟨previewed host changes w, rfl, bump_of_checkClean hplan hdry hcommit prompter⟩

end Check

/-! ## Small worktrees -/

/-- In a world with one commit and nothing else staged, only what differs from it is changed. -/
theorem mem_differences_of_isChanged {files : FileSystem} {tree : Snapshot} {path : Text}
    (h : (rootWorktree.status files ((committedWorld files tree).repository rootWorktree.gitDir)
      path).isChanged = true) :
    path ∈ Snapshot.differences tree.seen (rootWorktree.snapshot files) := by
  rw [Worktree.isChanged_status_iff, Worktree.mem_changedPaths_iff] at h
  have hne := (h.resolve_left fun hne => hne rfl).1
  rw [← Snapshot.get?_seen] at hne
  exact Snapshot.mem_differences_iff.2 hne

/-- An edited manifest may be allowed through the link that leads to its directory, and the status
may be gone through in any order. -/
theorem checkClean_through_link :
    let w := committedWorld releaseFiles releaseTree
    openWorktree sampleHost w.files Path.here = .ok rootWorktree
      ∧ relativePaths rootWorktree sampleHost.env w.files [ascii "b/Cargo.toml"]
        = .ok [ascii "a/Cargo.toml"]
      ∧ checkClean sampleHost w Path.here [ascii "b/Cargo.toml"] = .ok ()
      ∧ ∀ entries, entries.Perm (rootWorktree.statusEntries w.files (w.repository [ascii ".git"])) →
        verdict [ascii "a/Cargo.toml"] entries = .ok () := by
  intro w
  have hproper : w.files.Proper :=
    FileSystem.proper_of_nodes (by decide +kernel) (by decide +kernel) (by decide +kernel)
  have hopen : openWorktree sampleHost w.files Path.here = .ok rootWorktree := by decide +kernel
  have hpaths : relativePaths rootWorktree sampleHost.env w.files [ascii "b/Cargo.toml"]
      = .ok [ascii "a/Cargo.toml"] := by decide +kernel
  have hstatus : rootWorktree.statusError? w.files (w.repository rootWorktree.gitDir).index = none := by
    decide +kernel
  have hrefuses := ((checkClean_refuses_unrelated hproper hopen [ascii "b/Cargo.toml"]).2.1 _ hpaths).2.2
    hstatus
  have hclean : checkClean sampleHost w Path.here [ascii "b/Cargo.toml"] = .ok () := by
    refine hrefuses.passes_iff.2 fun path hpath => ?_
    have hdifferences : Snapshot.differences releaseTree.seen (rootWorktree.snapshot releaseFiles)
        = [ascii "a/Cargo.toml"] := by decide +kernel
    have hmem : path ∈ Snapshot.differences releaseTree.seen (rootWorktree.snapshot releaseFiles) :=
      mem_differences_of_isChanged hpath
    rwa [hdifferences] at hmem
  refine ⟨hopen, hpaths, hclean, fun entries hentries => ?_⟩
  rw [hrefuses.any_order entries (listing_of_perm hentries), hclean]

/-- A worktree whose index is broken. -/
def brokenWorld : World where
  files :=
    { nodes := [([], .directory Mode.newDirectory),
        ([ascii "Cargo.toml"], .file Mode.newFile (ascii "[package]\nversion = \"1.0.0\"\n"))]
          ++ gitNodes ++ [([ascii ".git", ascii "index"], .file Mode.newFile (ascii "garbage"))]
      current := [] }
  repositories := []
  input := .ofText []

/-- A worktree with a directory that cannot be listed. -/
def lockedFiles : FileSystem where
  nodes :=
    [([], .directory Mode.newDirectory),
      ([ascii "Cargo.toml"], .file Mode.newFile (ascii "[package]\nversion = \"1.0.0\"\n")),
      ([ascii "locked"], .directory 0)] ++ gitNodes
  current := []

/-- A worktree in which a committed file was deleted from a directory that a link leads to. -/
def vanishedFiles : FileSystem where
  nodes :=
    [([], .directory Mode.newDirectory),
      ([ascii "link"], .link (ascii "real")),
      ([ascii "real"], .directory Mode.newDirectory),
      ([ascii "real", ascii "x"], .file Mode.newFile (ascii "x"))] ++ gitNodes
  current := []

def vanishedTree : Snapshot :=
  [(ascii "link", .link (ascii "real")),
    (ascii "real/Cargo.toml", .file false (ascii "[package]\nversion = \"1.0.0\"\n")),
    (ascii "real/x", .file false (ascii "x"))]

/-- **A check of an opened worktree can fail otherwise than for unrelated changes, and links on the
way to a file that is gone are not resolved.**  In the first worktree the index cannot be read; in
the second a directory cannot be listed; in the third the only change is the file that the allowed
path led to. -/
theorem checkClean_unread_or_vanished :
    (openWorktree sampleHost brokenWorld.files Path.here = .ok rootWorktree
      ∧ checkClean sampleHost brokenWorld Path.here [ascii "Cargo.toml"]
        = .error (.status (.index .malformed)))
    ∧ (openWorktree sampleHost lockedFiles Path.here = .ok rootWorktree
      ∧ checkClean sampleHost (committedWorld lockedFiles []) Path.here [ascii "Cargo.toml"]
        = .error (.status (.unlisted false ⟨.opens, ascii "/locked", .denied⟩)))
    ∧ openWorktree sampleHost vanishedFiles Path.here = .ok rootWorktree
      ∧ vanishedFiles.realLocation (ascii "/link") = .ok [ascii "real"]
      ∧ (∀ path, (rootWorktree.status vanishedFiles
          ((committedWorld vanishedFiles vanishedTree).repository rootWorktree.gitDir) path).isChanged
            = true ↔ path = ascii "real/Cargo.toml")
      ∧ checkClean sampleHost (committedWorld vanishedFiles vanishedTree) Path.here
          [ascii "link/Cargo.toml"] = .error (.dirty [ascii "real/Cargo.toml"]) := by
  have hopen : openWorktree sampleHost (committedWorld vanishedFiles vanishedTree).files Path.here
      = .ok rootWorktree := by decide +kernel
  have hstatusError : rootWorktree.statusError? (committedWorld vanishedFiles vanishedTree).files
      ((committedWorld vanishedFiles vanishedTree).repository rootWorktree.gitDir).index = none := by
    decide +kernel
  have hdifferences : Snapshot.differences vanishedTree.seen (rootWorktree.snapshot vanishedFiles)
      = [ascii "real/Cargo.toml"] := by decide +kernel
  have hstatus : ∀ path, (rootWorktree.status vanishedFiles
      ((committedWorld vanishedFiles vanishedTree).repository rootWorktree.gitDir) path).isChanged
        = true ↔ path = ascii "real/Cargo.toml" := by
    refine fun path => ⟨fun hpath => ?_, fun hpath => ?_⟩
    · have hmem := mem_differences_of_isChanged hpath
      rwa [hdifferences, List.mem_singleton] at hmem
    · subst hpath
      rw [Worktree.isChanged_status_iff, Worktree.mem_changedPaths_iff]
      exact Or.inr ⟨by decide +kernel, fun hnone => absurd hnone (by decide +kernel)⟩
  have hpaths : relativePaths rootWorktree sampleHost.env
      (committedWorld vanishedFiles vanishedTree).files [ascii "link/Cargo.toml"]
        = .ok [ascii "link/Cargo.toml"] := by decide +kernel
  refine ⟨⟨by decide +kernel, by decide +kernel⟩, ⟨by decide +kernel, by decide +kernel⟩, hopen,
    by decide +kernel, hstatus, ?_⟩
  have hunrelated : unrelated (rootWorktree.changedPaths vanishedFiles
      ((committedWorld vanishedFiles vanishedTree).repository rootWorktree.gitDir))
        [ascii "link/Cargo.toml"] = [ascii "real/Cargo.toml"] := by
    refine (Worktree.pairwise_changedPaths.filter _).eq_of_mem_iff (List.pairwise_singleton _ _) ?_
    intro path
    rw [← unrelated, mem_unrelated_iff, ← Worktree.isChanged_status_iff, hstatus, List.mem_singleton,
      List.mem_singleton, and_iff_left_iff_imp]
    rintro rfl
    decide
  rw [checkClean_eq_answer hopen hpaths hstatusError]
  exact congrArg answer hunrelated

end Git

end CrateBump
