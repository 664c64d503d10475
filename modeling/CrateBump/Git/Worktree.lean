/-
# Worktrees

How the repository around a directory is found, what its worktree holds, and which paths differ from
what was committed.
-/
import CrateBump.FileSystem.WorkingDirectory
import CrateBump.Git.ConfigFile
import CrateBump.Git.Ignore
import CrateBump.World

namespace CrateBump.Git

/-! ## Finding the repository -/

/-- Why no repository can be opened. -/
inductive OpenError where
  | noRepository
  | noGitdirMark
  | unknownUser (name : Text)
  | malformedConfig
  | system (error : FileError)
  deriving DecidableEq, Repr

namespace OpenError

/-- The wording of an opening error. -/
def message : OpenError → Text
  | noRepository => ascii "repository does not exist"
  | noGitdirMark => ascii ".git file has no gitdir:  prefix"
  | unknownUser name => ascii "user: unknown user " ++ name
  | malformedConfig => ascii "malformed configuration"
  | system e => e.message

end OpenError

/-- A repository with the directory whose files it tracks. -/
structure Worktree where
  /-- The location of the repository's data. -/
  gitDir : Location
  /-- The directory as it was found, links unresolved. -/
  root : Text
  /-- The location of the directory. -/
  top : Location
  deriving DecidableEq, Repr

/-- A path below a directory. -/
def below (dir name : Text) : Text := Path.join [dir, name]

/-- The mark in front of the path that a `.git` file holds. -/
def gitdirMark : Text := ascii "gitdir: "

/-- The path of the data directory that a `.git` entry of a directory stands for. -/
def dataPath (fs : FileSystem) (path dir : Text) : Node → Except OpenError Text
  | .directory _ => .ok (below dir gitName)
  | _ =>
    match fs.readFile (below dir gitName) with
    | .error e => .error (.system e)
    | .ok content =>
      match Text.dropLead? gitdirMark content with
      | none => .error .noGitdirMark
      | some rest =>
        let target := Text.trim (rest.takeWhile (· != lineFeed))
        .ok (if FileSystem.isRooted target then target else below path target)

/-- The nearest directory upwards with a `.git` entry, as the data path and the directory.  The
location to start from is given by its names, last one first, links unresolved. -/
def searchUpwards (fs : FileSystem) : List Text → Except OpenError (Option (Text × Text))
  | [] =>
    let path := FileSystem.textOf []
    match fs.stat (below path gitName) with
    | .ok node => (dataPath fs path path node).map fun data => some (data, path)
    | .error e => if e.reason = .notFound then .ok none else .error (.system e)
  | name :: parents =>
    let path := FileSystem.textOf (name :: parents).reverse
    let dir? : Except OpenError Text := match fs.stat path with
      | .ok (.directory _) => .ok path
      | .ok _ => .ok (FileSystem.textOf parents.reverse)
      | .error e => if e.reason = .notFound then .ok path else .error (.system e)
    match dir? with
    | .error e => .error e
    | .ok dir =>
      match fs.stat (below dir gitName) with
      | .ok node => (dataPath fs path dir node).map fun data => some (data, dir)
      | .error e => if e.reason = .notFound then searchUpwards fs parents else .error (.system e)

/-- A path text with a leading tilde replaced by the home directory. -/
def expandTilde (env : Environment) (t : Text) : Except OpenError Text :=
  match t with
  | 126 :: 47 :: rest => .ok (env.get (ascii "HOME") ++ [slash] ++ rest)
  | 126 :: rest =>
    if rest.contains slash then .error (.unknownUser (rest.takeWhile (· != slash))) else .ok t
  | _ => .ok t

/-- Whether a data directory has a usable head. -/
def hasHead (fs : FileSystem) (data : Text) : Bool :=
  match fs.readFile (below data (ascii "HEAD")) with
  | .ok content => !Text.isWhite content
  | .error _ => false

/-- The settings in a configuration file; a missing file has none. -/
def settingsIn (fs : FileSystem) (path : Text) : Except OpenError (List Setting) :=
  match fs.readFile path with
  | .ok content =>
    match Setting.parse? content with
    | none => .error .malformedConfig
    | some settings => .ok settings
  | .error e => if e.reason = .notFound then .ok [] else .error (.system e)

/-- The directory with a `.git` entry nearest to a directory, with its data path. -/
def findWorktree (env : Environment) (fs : FileSystem) (root : Text) :
    Except OpenError (Option (Text × Text)) :=
  match expandTilde env root with
  | .error e => .error e
  | .ok root =>
    match fs.absolutePath env root with
    | .error e => .error (.system e)
    | .ok start => searchUpwards fs (FileSystem.steps start).reverse

/-- The worktree around a directory. -/
def openWorktree (host : Host) (fs : FileSystem) (root : Text) : Except OpenError Worktree :=
  match findWorktree host.env fs root with
  | .error e => .error e
  | .ok none => .error .noRepository
  | .ok (some (data, dir)) =>
    if !hasHead fs data then .error .noRepository
    else match settingsIn fs (below data (ascii "config")) with
      | .error e => .error e
      | .ok _ =>
        match fs.realLocation data, fs.realLocation dir with
        | .ok gitDir, .ok top => .ok ⟨gitDir, dir, top⟩
        | .error reason, _ => .error (.system ⟨.lstats, data, reason⟩)
        | _, .error reason => .error (.system ⟨.lstats, dir, reason⟩)

/-! ## Paths and files of a worktree -/

/-- An absolute path as seen from the top of a worktree, with links resolved as far as the path leads
somewhere. -/
def Worktree.relativeTo (wt : Worktree) (fs : FileSystem) (absolute : Text) : Text :=
  Path.relative (FileSystem.textOf wt.top) <|
    match fs.realLocation absolute with
    | .ok loc => FileSystem.textOf loc
    | .error _ => absolute

/-- A path text as seen from the top of a worktree. -/
def Worktree.relativePath (wt : Worktree) (env : Environment) (fs : FileSystem) (path : Text) :
    Except FileError Text :=
  (fs.absolutePath env path).map (wt.relativeTo fs)

/-- What a look at a node finds, if it is one that can be recorded. -/
def sightOf? : Node → Option Sight
  | .file mode content =>
    some (if mode.canRead then .blob (.file mode.isExecutable content) else .unread)
  | .link target => some (.blob (.link target))
  | .directory _ => none

/-- What a look at a worktree finds, the repository's own data left out. -/
def Worktree.snapshot (wt : Worktree) (fs : FileSystem) : Snapshot Sight :=
  fs.nodes.filterMap fun (loc, node) =>
    let names := loc.drop wt.top.length
    match sightOf? node with
    | none => none
    | some sight =>
      if wt.top.isPrefixOf loc && !names.isEmpty && !names.contains gitName then
        some (Text.joinWith [slash] names, sight)
      else none

/-! ## Status -/

/-- Why the index cannot be read. -/
inductive IndexError where
  | empty
  | truncated
  | malformed
  deriving DecidableEq, Repr

namespace IndexError

/-- The wording of an index error. -/
def message : IndexError → Text
  | empty => ascii "EOF"
  | truncated => ascii "unexpected EOF"
  | malformed => ascii "malformed index signature file"

end IndexError

/-- Why an index file that did not come from a recorded state is refused. -/
def indexError? (fs : FileSystem) (gitDir : Location) : Option IndexError :=
  match fs.readFile (FileSystem.textOf (gitDir ++ [ascii "index"])) with
  | .error _ => none
  | .ok content =>
    if content.isEmpty then some .empty
    else if content.length < 4 then some .truncated
    else if Text.startsWith (ascii "DIRC") content then some .truncated
    else some .malformed

/-- Why a directory cannot be listed together with what its names stand for, if so. -/
def listingError? (fs : FileSystem) (path : Text) (loc : Location) : Option FileError :=
  match fs.node? loc with
  | some (.directory mode) =>
    if !mode.canRead then some ⟨.opens, path, .denied⟩
    else if mode.canSearch then none
    else (fs.names loc).head?.map fun name => ⟨.lstats, path ++ [slash] ++ name, .denied⟩
  | _ => none

/-- Why no status can be made. -/
inductive StatusError where
  | index (error : IndexError)
  /-- A directory cannot be listed.  `tracked` says whether the index knows of paths in it. -/
  | unlisted (tracked : Bool) (error : FileError)
  deriving DecidableEq, Repr

namespace StatusError

/-- The wording of a status error. -/
def message : StatusError → Text
  | index e => e.message
  | unlisted true e => ascii "to: " ++ e.message
  | unlisted false e => e.message

end StatusError

namespace Worktree

/-- Whether the index knows of a path, or of one below it.  The names are those from the top. -/
def tracks (index : Snapshot) (names : List Text) : Bool :=
  index.paths.any fun path => names.isPrefixOf (Text.splitOn slash path)

/-- The names that lead from the top to the directories of a worktree, the repository's own data left
out. -/
def directories (wt : Worktree) (fs : FileSystem) : List (List Text) :=
  fs.nodes.filterMap fun (loc, node) =>
    let names := loc.drop wt.top.length
    match node with
    | .directory _ =>
      if wt.top.isPrefixOf loc && !names.contains gitName then some names else none
    | _ => none

/-- The path of the node that names lead to from the top. -/
def pathTo (wt : Worktree) (names : List Text) : Text :=
  if names.isEmpty then wt.root else below wt.root (Text.joinWith [slash] names)

/-- What keeps directories of the worktree from being listed, with the names that lead to them. -/
def unlisted (wt : Worktree) (fs : FileSystem) : List (List Text × FileError) :=
  (wt.directories fs).filterMap fun names =>
    (listingError? fs (wt.pathTo names) (wt.top ++ names)).map (names, ·)

/-- The entry whose names come first. -/
def first? : List (List Text × FileError) → Option (List Text × FileError)
  | [] => none
  | entry :: rest =>
    match first? rest with
    | none => some entry
    | some other => some (if other.1 < entry.1 then other else entry)

/-- Why the status of a worktree cannot be made: the index is broken, or a directory cannot be listed.
Directories are listed by ascending names, each one before those in it. -/
def statusError? (wt : Worktree) (fs : FileSystem) (index : Snapshot) : Option StatusError :=
  match indexError? fs wt.gitDir with
  | some e => some (.index e)
  | none => (first? (wt.unlisted fs)).map fun (names, e) =>
    .unlisted (names.isEmpty || tracks index names) e

/-- Whether patterns of the worktree leave a path out. -/
def ignores (wt : Worktree) (fs : FileSystem) (path : Text) : Bool :=
  isIgnored (ignorePatterns fs wt.top) (Text.splitOn slash path) false

/-- The paths of the worktree that are not as in the index, ignored ones that are not in the index left
out. -/
def unstaged (wt : Worktree) (fs : FileSystem) (index : Snapshot) : List Text :=
  let patterns := ignorePatterns fs wt.top
  (Snapshot.differences index.seen (wt.snapshot fs)).filter fun path =>
    (index.get? path).isSome || !isIgnored patterns (Text.splitOn slash path) false

/-- The paths whose committed, staged and present states are not all equal, in ascending order. -/
def changedPaths (wt : Worktree) (fs : FileSystem) (r : Repository) : List Text :=
  Text.sort <| Text.distinct <|
    Snapshot.differences r.headTree r.index ++ wt.unstaged fs r.index

end Worktree

end CrateBump.Git
