/-
# Reading and writing files

The operations of the system as its users see them, with errors that name the operation and the
path.  Writing replaces the whole content of an existing file in place, through links, and keeps its
permission bits.
-/
import CrateBump.FileSystem.Walk

namespace CrateBump

/-- What was asked of the system. -/
inductive FileOperation where
  | opens
  | reads
  | stats
  | lstats
  deriving DecidableEq, Repr

namespace FileOperation

/-- The system's name of an operation. -/
def name : FileOperation → Text
  | opens => ascii "open"
  | reads => ascii "read"
  | stats => ascii "stat"
  | lstats => ascii "lstat"

end FileOperation

/-- A refused operation. -/
structure FileError where
  operation : FileOperation
  path : Text
  reason : Reason
  deriving DecidableEq, Repr

namespace FileError

/-- The wording of a refused operation. -/
def message (e : FileError) : Text :=
  e.operation.name ++ ascii " " ++ e.path ++ ascii ": " ++ e.reason.message

end FileError

namespace FileSystem

/-- The node a path leads to through all links. -/
def stat (fs : FileSystem) (path : Text) : Except FileError Node :=
  match fs.resolve true path with
  | .error reason => .error ⟨.stats, path, reason⟩
  | .ok loc =>
    match fs.node? loc with
    | some node => .ok node
    | none => .error ⟨.stats, path, .notFound⟩

/-- The node a path leads to, itself a link perhaps. -/
def lstat (fs : FileSystem) (path : Text) : Except FileError Node :=
  match fs.resolve false path with
  | .error reason => .error ⟨.lstats, path, reason⟩
  | .ok loc =>
    match fs.node? loc with
    | some node => .ok node
    | none => .error ⟨.lstats, path, .notFound⟩

/-- The content of the file a path leads to. -/
def readFile (fs : FileSystem) (path : Text) : Except FileError Text :=
  match fs.resolve true path with
  | .error reason => .error ⟨.opens, path, reason⟩
  | .ok loc =>
    match fs.node? loc with
    | some (.file m content) => if m.canRead then .ok content else .error ⟨.opens, path, .denied⟩
    | some (.directory m) =>
      if m.canRead then .error ⟨.reads, path, .isDirectory⟩ else .error ⟨.opens, path, .denied⟩
    | _ => .error ⟨.opens, path, .notFound⟩

/-- The location of the file that opening a path for writing would change. -/
def openForWriting (fs : FileSystem) (path : Text) : Except FileError Location :=
  match fs.resolve true path with
  | .error reason => .error ⟨.opens, path, reason⟩
  | .ok loc =>
    match fs.node? loc with
    | some (.file m _) => if m.canWrite then .ok loc else .error ⟨.opens, path, .denied⟩
    | some (.directory _) => .error ⟨.opens, path, .isDirectory⟩
    | _ => .error ⟨.opens, path, .notFound⟩

/-- The file system after the file a path leads to got another content. -/
def writeFile (fs : FileSystem) (path content : Text) : Except FileError FileSystem :=
  match fs.openForWriting path with
  | .error e => .error e
  | .ok loc => .ok (fs.setContent loc content)

end FileSystem

end CrateBump
