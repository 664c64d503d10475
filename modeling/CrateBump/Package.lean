/-
# Package labels

The name and version of a package as a reader of whole TOML documents sees them.  They serve as
labels only: finding and replacing versions never depends on them.
-/
import CrateBump.Document.Toml.Parser
import CrateBump.Text.Lowercase
import CrateBump.Workspace

namespace CrateBump

/-- The package table of a manifest; a missing entry is empty. -/
structure PackageInfo where
  name : Text
  version : Text
  deriving DecidableEq, Repr

/-- Why the package table of a manifest cannot be given. -/
inductive PackageError where
  /-- The manifest at `path` cannot be opened or read. -/
  | unreadable (path : Text) (error : FileError)
  /-- The manifest at `path` is no document of the expected form. -/
  | malformed (path : Text)
  deriving DecidableEq, Repr

namespace PackageError

/-- The wording of a package error. -/
def message : PackageError → Text
  | unreadable path e => ascii "decoding " ++ path ++ ascii ": " ++ e.message
  | malformed path => ascii "decoding " ++ path ++ ascii ": malformed document"

end PackageError

namespace PackageInfo

/-- Manifests are read in the latest edition of TOML. -/
def dialect : Toml.Dialect :=
  { byteEscape := true, looseTables := true, secondsOptional := true, lastSecond := 59,
    openTables := true, skipsMark := true }

/-- The form of a code point in which case does not matter; the long s counts as an s. -/
def foldCode (code : Nat) : Nat := if code = 0x17F then 115 else Text.lowerCode code

/-- Whether two keys are equal but for case. -/
def sameKey (a b : Text) : Bool := (Text.codes a).map foldCode == (Text.codes b).map foldCode

/-- The entries whose key is `key` but for case. -/
def spellings (key : Text) (entries : List (Text × Value)) : List (Text × Value) :=
  entries.filter fun e => sameKey e.1 key

/-- A value that is a text. -/
def text? : Value → Option Text
  | .text t => some t
  | _ => none

/-- The text under a key, and `before` if there is none.  However the key is spelled, the text that is
visited last counts, and all of them must be texts. -/
def textUnder? (key before : Text) (visited : List (Text × Value)) : Option Text :=
  (spellings key visited).foldlM (fun _ e => text? e.2) before

/-- The labels after one more package table. -/
def fill? (order : KeyOrder) (info : PackageInfo) : Value → Option PackageInfo
  | .table entries =>
    let visited := order.visit entries
    match textUnder? (ascii "name") info.name visited,
      textUnder? (ascii "version") info.version visited with
    | some name, some version => some ⟨name, version⟩
    | _, _ => none
  | _ => none

/-- The labels in a document, if all its package entries are tables with texts.  They fill one after
the other. -/
def ofDocument? (order : KeyOrder) (document : Value) : Option PackageInfo :=
  (spellings (ascii "package") (order.visit document.entries)).foldlM
    (fun info e => fill? order info e.2) ⟨[], []⟩

/-- The labels in a manifest. -/
def ofManifest? (order : KeyOrder) (content : Text) : Option PackageInfo :=
  (Toml.parse? dialect content).bind (ofDocument? order)

end PackageInfo

/-- The package table of a member's manifest, its keys visited as they are written.  The order matters
only where a key is written twice in different cases. -/
def Workspace.packageInfo (ws : Workspace) (fs : FileSystem) (member : Text) :
    Except PackageError PackageInfo :=
  let path := ws.manifestPath member
  match fs.readFile path with
  | .error e => .error (.unreadable path e)
  | .ok content =>
    match PackageInfo.ofManifest? .written content with
    | some info => .ok info
    | none => .error (.malformed path)

end CrateBump
