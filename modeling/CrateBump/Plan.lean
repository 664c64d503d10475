/-
# Planning and applying a bump

A plan is made from the files as they are: the root and every declared member are read, and every new
version is computed, before anything is written.  Applying a plan writes the manifests one by one in
plan order and stops at the first that cannot be written; what was written before stays.
-/
import CrateBump.Package
import CrateBump.Version.Semver
import CrateBump.Version.Triple

namespace CrateBump

/-- One pending change to a manifest. -/
structure Change where
  /-- The directory of the member relative to the workspace root. -/
  member : Text
  /-- The path of its manifest. -/
  path : Text
  /-- The name of its package, empty if the manifest does not tell. -/
  name : Text
  oldVersion : Text
  newVersion : Text
  /-- How the old version compares with the root's: -1 behind, 0 equal, 1 ahead. -/
  drift : Int
  deriving DecidableEq, Repr

/-- Why no plan can be made. -/
inductive PlanError where
  | manifest (error : ManifestError)
  | version (member : Text) (error : VersionError)
  deriving DecidableEq, Repr

namespace PlanError

/-- The cause behind a plan error. -/
def cause? : PlanError → Option Cause
  | manifest e => e.cause?
  | version _ e => some e.cause

/-- The wording of a plan error. -/
def message : PlanError → Text
  | manifest e => e.message
  | version member e => member ++ ascii ": " ++ e.message

end PlanError

/-! ## Planning -/

/-- An ordering as a number. -/
def signOf : Ordering → Int
  | .lt => -1
  | .eq => 0
  | .gt => 1

/-- The order of two versions by their canonical forms. -/
def versionOrder (u v : Text) : Ordering :=
  Semver.compare (canonicalOrEmpty u) (canonicalOrEmpty v)

/-- How a version compares with the root's. -/
def driftBetween (version root : Text) : Int := signOf (versionOrder version root)

/-- The label of a member, empty if its manifest does not tell. -/
def Workspace.label (ws : Workspace) (fs : FileSystem) (member : Text) : Text :=
  match ws.packageInfo fs member with
  | .ok info => info.name
  | .error _ => []

/-- The changes of the members in order.  `root` is the version of the workspace root, once it is
known. -/
def planMembers (ws : Workspace) (fs : FileSystem) (kind : Kind) :
    (root : Text) → List Text → Except PlanError (List Change)
  | _, [] => .ok []
  | root, member :: rest =>
    match ws.queryVersion fs member with
    | .error e => .error (.manifest e)
    | .ok old =>
      match bumpVersion old kind with
      | .error e => .error (.version member e)
      | .ok new =>
        let isRoot := member == Workspace.rootMember
        let change : Change :=
          { member := member
            path := ws.manifestPath member
            name := ws.label fs member
            oldVersion := old
            newVersion := new
            drift := if isRoot then 0 else driftBetween old root }
        match planMembers ws fs kind (if isRoot then old else root) rest with
        | .error e => .error e
        | .ok changes => .ok (change :: changes)

/-- The changes that bump the root and every declared member.  Nothing is written. -/
def plan (ws : Workspace) (fs : FileSystem) (kind : Kind) : Except PlanError (List Change) :=
  match ws.allMembers fs with
  | .error e => .error (.manifest e)
  | .ok members => planMembers ws fs kind [] members

/-! ## Applying -/

/-- A write loop that stopped part way. -/
structure PartialWrite where
  /-- The members whose manifests were written. -/
  written : List Text
  /-- The member whose manifest was not. -/
  failed : Text
  error : ManifestError
  deriving DecidableEq, Repr

/-- The wording of a stopped write loop around the wording of its reason. -/
def partialWriteMessage (written : List Text) (failed reason : Text) : Text :=
  let head := ascii "writing " ++ failed ++ ascii ": " ++ reason
  if written.isEmpty then head
  else head ++ ascii " (already written: " ++ Text.joinWith (ascii ", ") written ++ ascii ")"

namespace PartialWrite

/-- The wording of a stopped write loop. -/
def message (p : PartialWrite) : Text := partialWriteMessage p.written p.failed p.error.message

end PartialWrite

/-- What applying changes led to. -/
structure Applied where
  /-- The members whose manifests were written, in order. -/
  written : List Text
  files : FileSystem
  error? : Option PartialWrite

/-- Writes the changes in order behind the members written before. -/
def applyAfter (ws : Workspace) : (written : List Text) → FileSystem → List (Text × Text) → Applied
  | written, fs, [] => ⟨written, fs, none⟩
  | written, fs, (member, newVersion) :: rest =>
    match ws.writeVersion fs member newVersion with
    | .error e => ⟨written, fs, some ⟨written, member, e⟩⟩
    | .ok fs' => applyAfter ws (written ++ [member]) fs' rest

/-- Writes new versions, each given with its member, in order. -/
def applyVersions (ws : Workspace) (fs : FileSystem) (versions : List (Text × Text)) : Applied :=
  applyAfter ws [] fs versions

/-- Writes every change of a plan in order. -/
def applyChanges (ws : Workspace) (fs : FileSystem) (changes : List Change) : Applied :=
  applyVersions ws fs (changes.map fun c => (c.member, c.newVersion))

end CrateBump
