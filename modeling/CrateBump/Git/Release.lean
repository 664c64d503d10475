/-
# Releases

Before a release nothing unrelated may be changed in the worktree; a release stages the given files,
commits them with the version as the message and, if asked, tags the commit.
-/
import CrateBump.Cause
import CrateBump.Git.Worktree
import CrateBump.Text.Quoted
import CrateBump.Version.Semver

namespace CrateBump

namespace Git

/-- Why a file cannot be staged. -/
inductive StageError where
  | status (error : StatusError)
  /-- The path leads out of the worktree. -/
  | outside
  /-- The path is neither there nor in the index. -/
  | noEntry
  | system (error : FileError)
  deriving DecidableEq, Repr

namespace StageError

/-- The wording of a staging error. -/
def message : StageError → Text
  | status e => e.message
  | outside => ascii "chroot boundary crossed"
  | noEntry => ascii "entry not found"
  | system e => e.message

end StageError

/-- Why a release or the check before it fails. -/
inductive ReleaseError where
  | opening (root : Text) (error : OpenError)
  /-- A path cannot be made absolute. -/
  | unresolved (path : Text) (error : FileError)
  | status (error : StatusError)
  | dirty (paths : List Text)
  | invalidTag (tag : Text)
  | staging (path : Text) (error : StageError)
  | commitIndex (error : IndexError)
  | nothingNew
  | tagging (error : Repository.TagError)
  deriving DecidableEq, Repr

namespace ReleaseError

/-- Of all release errors only unrelated changes have a cause of their own. -/
def cause? : ReleaseError → Option Cause
  | dirty _ => some .dirtyWorktree
  | _ => none

/-- The wording of a release error. -/
def message : ReleaseError → Text
  | opening root e => ascii "opening git repository at " ++ root ++ ascii ": " ++ e.message
  | unresolved path e =>
    ascii "failed to resolve path " ++ Text.quoted path ++ ascii ": " ++ e.message
  | status e => ascii "failed to check git status: " ++ e.message
  | dirty paths =>
    Cause.dirtyWorktree.message ++ ascii "; uncommitted files not included in commit: ["
      ++ Text.joinWith [32] paths ++ ascii "]"
  | invalidTag tag => ascii "tag " ++ Text.quoted tag ++ ascii " is not valid semver"
  | staging path e => ascii "git add " ++ path ++ ascii " failed: " ++ e.message
  | commitIndex e => ascii "git commit failed: " ++ e.message
  | nothingNew => ascii "git commit failed: cannot create empty commit: clean working tree"
  | tagging .invalidName => ascii "git tag failed: invalid reference name"
  | tagging .exists => ascii "git tag failed: tag already exists"

end ReleaseError

/-! ## Paths -/

/-- Paths as seen from the top of a worktree, or the first that cannot be made absolute. -/
def relativePaths (wt : Worktree) (env : Environment) (fs : FileSystem) :
    List Text → Except ReleaseError (List Text)
  | [] => .ok []
  | path :: rest =>
    match wt.relativePath env fs path with
    | .error e => .error (.unresolved path e)
    | .ok relative => (relativePaths wt env fs rest).map (relative :: ·)

theorem relativePaths_eq_error {wt : Worktree} {env : Environment} {fs : FileSystem}
    {paths : List Text} {e : ReleaseError} (h : relativePaths wt env fs paths = .error e) :
    ∃ path ∈ paths, ∃ reason, wt.relativePath env fs path = .error reason
      ∧ e = .unresolved path reason := by
  induction paths with
  | nil => cases h
  | cons path rest ih =>
    rw [relativePaths] at h
    split at h
    · next reason hreason =>
      exact ⟨path, List.mem_cons_self, reason, hreason, (Except.error.inj h).symm⟩
    · cases hrest : relativePaths wt env fs rest with
      | ok relatives =>
        rw [hrest] at h
        cases h
      | error e' =>
        rw [hrest] at h
        obtain ⟨p, hp, hreason⟩ := ih (hrest.trans h)
        exact ⟨p, List.mem_cons_of_mem _ hp, hreason⟩

/-! ## The check -/

/-- The changed paths of a worktree that are not allowed to be. -/
def unrelated (changed allowed : List Text) : List Text :=
  changed.filter fun path => !allowed.contains path

/-- Makes sure that only allowed files are changed in the worktree around a directory. -/
def checkClean (host : Host) (w : World) (root : Text) (allowed : List Text) :
    Except ReleaseError Unit :=
  match openWorktree host w.files root with
  | .error e => .error (.opening root e)
  | .ok wt =>
    match relativePaths wt host.env w.files allowed with
    | .error e => .error e
    | .ok allowed =>
      let r := w.repository wt.gitDir
      match wt.statusError? w.files r.index with
      | some e => .error (.status e)
      | none =>
        match unrelated (wt.changedPaths w.files r) allowed with
        | [] => .ok ()
        | paths => .error (.dirty paths)

/-! ## Staging -/

/-- The index after what stands at a path was recorded in it; what is gone is taken out of it. -/
def stageFile (wt : Worktree) (fs : FileSystem) (index : Snapshot) (path : Text) :
    Except StageError Snapshot :=
  let place := below wt.root path
  match fs.lstat place with
  | .error e =>
    if e.reason ≠ .notFound then .error (.system e)
    else if (index.get? path).isSome then .ok (index.erase path)
    else .error .noEntry
  | .ok (.link target) => .ok (index.put path (.link target))
  | .ok (.file mode content) =>
    if mode.canRead then .ok (index.put path (.file mode.isExecutable content))
    else .error (.system ⟨.opens, place, .denied⟩)
  | .ok (.directory mode) =>
    if mode.canRead then .error (.system ⟨.reads, place, .isDirectory⟩)
    else .error (.system ⟨.opens, place, .denied⟩)

/-- The paths among some that lie below a directory of the worktree. -/
def pathsWithin (dir : Text) (paths : List Text) : List Text :=
  if dir = Path.here then paths
  else paths.filter fun path => Text.startsWith (dir ++ [slash]) path

/-- Whether a path was staged and is not reported to have changed since.  That may also be because
it was taken out of the index and no status looks for it. -/
def isOnlyStaged (wt : Worktree) (fs : FileSystem) (r : Repository) (path : Text) : Bool :=
  r.headTree.get? path != r.index.get? path && !(wt.unstaged fs r.index).contains path

/-- The index after a file, or every changed one below a directory, was staged.  Nothing is done about
a file that is staged already. -/
def stagedIndex (wt : Worktree) (fs : FileSystem) (r : Repository) (path : Text) :
    Except StageError Snapshot :=
  match wt.statusError? fs r.index with
  | some e => .error (.status e)
  | none =>
    if Text.startsWith (Path.up ++ [slash]) path then .error .outside
    else match fs.lstat (below wt.root path) with
      | .ok (.directory _) =>
        (pathsWithin path (wt.unstaged fs r.index)).foldlM (stageFile wt fs) r.index
      | _ => if isOnlyStaged wt fs r path then .ok r.index else stageFile wt fs r.index path

/-- The repository after a path was staged. -/
def stage (wt : Worktree) (fs : FileSystem) (r : Repository) (path : Text) :
    Except StageError Repository :=
  (stagedIndex wt fs r path).map fun index => { r with index := index }

/-- The repository after paths were staged in order; what was staged before a failure stays. -/
def stageAll (wt : Worktree) (fs : FileSystem) :
    Repository → List Text → Repository × Option (Text × StageError)
  | r, [] => (r, none)
  | r, path :: rest =>
    match stage wt fs r path with
    | .error e => (r, some (path, e))
    | .ok r' => stageAll wt fs r' rest

/-! ## The author -/

/-- Who commits where nobody is configured. -/
def fallbackIdentity : Identity := ⟨ascii "cargobump", ascii "cargobump@localhost"⟩

/-- The user's configuration files, in the order they are looked for. -/
def globalFiles (env : Environment) : List Text :=
  let xdg := env.get (ascii "XDG_CONFIG_HOME")
  let home := env.get (ascii "HOME")
  (if xdg.isEmpty then [] else [Path.join [xdg, ascii "git/config"]])
    ++ [Path.join [home, ascii ".gitconfig"], Path.join [home, ascii ".config/git/config"]]

/-- The settings of the first of some files that is there. -/
def firstSettings? (fs : FileSystem) : List Text → Option (List Setting)
  | [] => some []
  | path :: rest =>
    match fs.readFile path with
    | .ok content => Setting.parse? content
    | .error e => if e.reason = .notFound then firstSettings? fs rest else none

/-- The first of two texts that is not empty. -/
def orElse (first second : Text) : Text := if first.isEmpty then second else first

/-- Who commits: name and email each from the repository, else from the user's files, else the
fallback.  Without a home directory, or with a malformed file, the fallback counts for both. -/
def author (host : Host) (fs : FileSystem) (gitDir : Location) : Identity :=
  let localFile := FileSystem.textOf (gitDir ++ [ascii "config"])
  if (host.env.get (ascii "HOME")).isEmpty then fallbackIdentity
  else match firstSettings? fs (globalFiles host.env), settingsIn fs localFile with
    | some outer, .ok own =>
      let a := Setting.identity own
      let b := Setting.identity outer
      ⟨orElse (orElse a.name b.name) fallbackIdentity.name,
        orElse (orElse a.email b.email) fallbackIdentity.email⟩
    | _, _ => fallbackIdentity

/-! ## The release -/

/-- A finished release: the name of its commit, and its tag if it has one. -/
structure Release where
  commit : Text
  tag : Text
  deriving DecidableEq, Repr

/-- What asking for a release led to.  After an error the release is filled in as far as it came. -/
structure ReleaseOutcome where
  release : Release
  error? : Option ReleaseError
  world : World

/-- The tag for a version. -/
def tagFor (version : Text) : Text := 118 :: version

/-- Tags the newest commit, if asked. -/
def tagRelease (w : World) (gitDir : Location) (r : Repository) (commit version : Text)
    (tag : Bool) : ReleaseOutcome :=
  if tag then
    match r.tagHead (tagFor version) with
    | .error e => ⟨⟨commit, []⟩, some (.tagging e), w.setRepository gitDir r⟩
    | .ok r' => ⟨⟨commit, tagFor version⟩, none, w.setRepository gitDir r'⟩
  else ⟨⟨commit, []⟩, none, w.setRepository gitDir r⟩

/-- Stages paths, commits them with the version as message and, if asked, tags the commit. -/
def commitRelease (host : Host) (w : World) (root : Text) (paths : List Text) (version : Text)
    (tag : Bool) : ReleaseOutcome :=
  let failed := fun (w : World) (e : ReleaseError) => (⟨⟨[], []⟩, some e, w⟩ : ReleaseOutcome)
  if tag && !Semver.isValid (tagFor version) then failed w (.invalidTag (tagFor version))
  else match openWorktree host w.files root with
    | .error e => failed w (.opening root e)
    | .ok wt =>
      match relativePaths wt host.env w.files paths with
      | .error e => failed w e
      | .ok paths =>
        match stageAll wt w.files (w.repository wt.gitDir) paths with
        | (r, some (path, e)) => failed (w.setRepository wt.gitDir r) (.staging path e)
        | (r, none) =>
          match indexError? w.files wt.gitDir with
          | some e => failed (w.setRepository wt.gitDir r) (.commitIndex e)
          | none =>
            match r.commit version (author host w.files wt.gitDir) with
            | .error .nothingNew => failed (w.setRepository wt.gitDir r) .nothingNew
            | .ok r' =>
              tagRelease w wt.gitDir r' (host.commitName (r'.commits.length - 1)) version tag

end Git

end CrateBump
