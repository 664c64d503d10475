/-
# Workspaces

A workspace is a directory with a root manifest and, optionally, member directories with manifests
of their own.  Nothing is remembered between operations: every one reads the files it needs.
-/
import CrateBump.Cause
import CrateBump.FileSystem.Access
import CrateBump.Manifest.Members
import CrateBump.Manifest.VersionSite

namespace CrateBump

/-- Why a manifest could not be used. -/
inductive ManifestError where
  /-- The file cannot be opened or read. -/
  | unreadable (error : FileError)
  /-- The file at `path` declares no version. -/
  | noVersion (path : Text)
  /-- The file at `path` has no members array. -/
  | noMembers (path : Text)
  /-- The file at `path` cannot be written. -/
  | unwritable (path : Text) (error : FileError)
  deriving DecidableEq, Repr

namespace ManifestError

/-- The cause behind a manifest error; a refused write has none. -/
def cause? : ManifestError → Option Cause
  | unreadable _ => some .manifestUnreadable
  | noVersion _ => some .versionNotFound
  | noMembers _ => some .membersNotFound
  | unwritable _ _ => none

/-- The wording of a manifest error. -/
def message : ManifestError → Text
  | unreadable e => Cause.manifestUnreadable.message ++ ascii ": " ++ e.message
  | noVersion path => Cause.versionNotFound.message ++ ascii " in " ++ path
  | noMembers path => Cause.membersNotFound.message ++ ascii " in " ++ path
  | unwritable path e => ascii "writing " ++ path ++ ascii ": " ++ e.message

end ManifestError

/-- A project directory and the file name of its manifests; an empty text means the default. -/
structure Workspace where
  root : Text
  manifest : Text
  deriving DecidableEq, Repr

namespace Workspace

/-- The usual name of a manifest. -/
def defaultManifest : Text := ascii "Cargo.toml"

/-- The member that is the workspace root itself. -/
def rootMember : Text := Path.here

/-- The project directory. -/
def dir (ws : Workspace) : Text := if ws.root = [] then Path.here else ws.root

/-- The file name of the manifests. -/
def manifestName (ws : Workspace) : Text :=
  if ws.manifest = [] then defaultManifest else ws.manifest

/-- The path of a member's manifest. -/
def manifestPath (ws : Workspace) (member : Text) : Text :=
  Path.join [ws.dir, member, ws.manifestName]

/-- The manifest of a member. -/
def readManifest (ws : Workspace) (fs : FileSystem) (member : Text) : Except ManifestError Text :=
  match fs.readFile (ws.manifestPath member) with
  | .ok content => .ok content
  | .error e => .error (.unreadable e)

/-- The version a member declares. -/
def queryVersion (ws : Workspace) (fs : FileSystem) (member : Text) : Except ManifestError Text :=
  match ws.readManifest fs member with
  | .error e => .error e
  | .ok content =>
    match findVersion? content with
    | some site => .ok site.version
    | none => .error (.noVersion (ws.manifestPath member))

/-- The members the root manifest declares. -/
def queryMembers (ws : Workspace) (fs : FileSystem) : Except ManifestError (List Text) :=
  match ws.readManifest fs rootMember with
  | .error e => .error e
  | .ok content =>
    match findMembers? content with
    | some members => .ok members
    | none => .error (.noMembers (ws.manifestPath rootMember))

/-- The root followed by the declared members. -/
def allMembers (ws : Workspace) (fs : FileSystem) : Except ManifestError (List Text) :=
  match ws.queryMembers fs with
  | .error e => .error e
  | .ok members => .ok (rootMember :: members)

/-- The paths of the manifests of the root and, once its own manifest is there, of the members. -/
def manifestPaths (ws : Workspace) (fs : FileSystem) : List Text :=
  match ws.allMembers fs with
  | .ok members => members.map ws.manifestPath
  | .error _ => [ws.manifestPath rootMember]

/-- The file system after a member's declared version was replaced. -/
def writeVersion (ws : Workspace) (fs : FileSystem) (member newVersion : Text) :
    Except ManifestError FileSystem :=
  let path := ws.manifestPath member
  match fs.stat path with
  | .error e => .error (.unreadable e)
  | .ok _ =>
    match ws.readManifest fs member with
    | .error e => .error e
    | .ok content =>
      match replaceVersion? content newVersion with
      | none => .error (.noVersion path)
      | some updated =>
        match fs.writeFile path updated with
        | .error e => .error (.unwritable path e)
        | .ok fs' => .ok fs'

end Workspace

end CrateBump
