/-
# Loading settings

Finds and reads the configuration file, converts all settings and checks them.  Which file is read
depends on the sources without that file, so a file never leads to another one.
-/
import CrateBump.Config.Decode
import CrateBump.Document.Json
import CrateBump.Document.Readers
import CrateBump.Document.Toml.Parser
import CrateBump.FileSystem.WorkingDirectory

namespace CrateBump.Config

/-- Why settings cannot be loaded. -/
inductive LoadError where
  /-- The file named on request has an extension that is not known. -/
  | unsupported (file extension : Text)
  /-- The file cannot be found or read; `file?` is the one that was asked for. -/
  | unreadable (file? : Option Text) (error : FileError)
  | malformed (file? : Option Text)
  | undecodable (errors : List DecodeError)
  | invalid (error : SettingsError)
  deriving DecidableEq, Repr

namespace LoadError

/-- The start of a message about a file. -/
def reading : Option Text → Text
  | some file => ascii "reading config " ++ file ++ ascii ": "
  | none => ascii "reading config: "

/-- The wording of a load error. -/
def message : LoadError → Text
  | unsupported file ext =>
    reading (some file) ++ ascii "Unsupported Config Type " ++ Text.quoted ext
  | unreadable file? e => reading file? ++ e.message
  | malformed file? => reading file? ++ ascii "While parsing config: malformed document"
  | undecodable errors =>
    ascii "decoding config: decoding failed due to the following error(s):" ++ [10, 10]
      ++ Text.joinWith [lineFeed] (errors.map DecodeError.message)
  | invalid e => e.message

end LoadError

/-! ## Defaults -/

/-- The value of every setting that nothing else defines. -/
def defaults : Value :=
  .table [
    (ascii "root", .text (ascii ".")),
    (ascii "manifest", .text (ascii "Cargo.toml")),
    (ascii "log", .table [
      (ascii "level", .text (ascii "warn")),
      (ascii "format", .text (ascii "pretty"))]),
    (ascii "yes", .boolean false),
    (ascii "dry_run", .boolean false),
    (ascii "git", .table [
      (ascii "commit", .boolean false),
      (ascii "tag", .boolean false)])]

/-! ## Finding the file -/

/-- The extensions of configuration files, in the order they are looked for. -/
def extensions : List Text :=
  ["json", "toml", "yaml", "yml", "properties", "props", "prop", "hcl", "tfvars", "dotenv", "env",
    "ini"].map ascii

/-- The name of a configuration file without its extension. -/
def fileName : Text := ascii ".cargobump"

/-- The names of configuration files, in the order they are looked for. -/
def fileNames : List Text := extensions.map (fun ext => fileName ++ [dot] ++ ext) ++ [fileName]

/-- A byte that stands for a variable by itself. -/
def isSpecialVariable (b : UInt8) : Bool := Text.isDigit b || (ascii "*#$@!?-").contains b

/-- A byte of a variable's name. -/
def isVariableByte (b : UInt8) : Bool := Text.isDigit b || Text.isLetter b || b == 95

/-- The variable behind a dollar sign, and the text behind it.  Without a name the dollar sign
stands for itself; a malformed name in braces stands for nothing. -/
def variableAt (t : Text) : Option Text × Text :=
  match t with
  | 123 :: rest =>
    match rest.head?, (rest.drop 1).head? with
    | some b, some 125 =>
      if isSpecialVariable b then (some [b], rest.drop 2)
      else if b == 125 then (some [], rest.drop 1)
      else (some [b], rest.drop 2)
    | _, _ =>
      if rest.contains 125 then
        let name := rest.takeWhile (· != 125)
        (some name, rest.drop (name.length + 1))
      else (some [], rest)
  | b :: rest =>
    if isSpecialVariable b then (some [b], rest)
    else
      let name := t.takeWhile isVariableByte
      if name.isEmpty then (none, t) else (some name, t.drop name.length)
  | [] => (none, [])

/-- The text with its variables replaced by their values. -/
def expandVariables (env : Environment) : (fuel : Nat) → Text → Text
  | 0, t => t
  | _ + 1, [] => []
  | fuel + 1, b :: rest =>
    if b = 36 then
      match variableAt rest with
      | (none, rest) => 36 :: expandVariables env fuel rest
      | (some name, rest) =>
        (if name.isEmpty then [] else env.get name) ++ expandVariables env fuel rest
    else b :: expandVariables env fuel rest

/-- The directory that is searched for a file, as an absolute path.  Where the working directory cannot
be told the path is empty, and names in it are looked for from there. -/
def searchDirectory (env : Environment) (fs : FileSystem) (root : Text) : Text :=
  let home := ascii "$HOME"
  let root :=
    if root = home || Text.startsWith (home ++ [slash]) root then
      env.get (ascii "HOME") ++ root.drop home.length
    else root
  match fs.absolutePath env (expandVariables env (root.length + 1) root) with
  | .ok dir => dir
  | .error _ => []

/-- Whether a path leads to a file and to no directory. -/
def hasFile (fs : FileSystem) (path : Text) : Bool :=
  match fs.stat path with
  | .ok (.directory _) => false
  | .ok _ => true
  | .error _ => false

/-- The paths of files with the known names in a directory. -/
def pathsIn (dir : Text) : List Text := fileNames.map fun name => Path.join [dir, name]

/-! ## Reading the file -/

/-- Configuration files are read in the first stable edition of TOML. -/
def dialect : Toml.Dialect :=
  { byteEscape := false, looseTables := false, secondsOptional := false, lastSecond := 60,
    openTables := false, skipsMark := false }

/-- The document in a file with some extension.  Of the known extensions some have no reader. -/
def readerFor (readers : Readers) (env : Environment) (ext : Text) (content : Text) : Option Value :=
  if ext = ascii "json" then Json.parse? content
  else if ext = ascii "toml" then Toml.parse? dialect content
  else if ext = ascii "yaml" ∨ ext = ascii "yml" then (readers.yaml content).map .table
  else if ext = ascii "dotenv" ∨ ext = ascii "env" then
    (readers.dotenv env content).map fun es => .table (es.map fun (name, value) => (name, .text value))
  else none

/-- A value as a path, where settings are not yet converted. -/
def pathOf : Option Value → Text
  | some (.text t) => t
  | some (.boolean b) => if b then ascii "true" else ascii "false"
  | some (.integer n) => Decimal.ofInt n
  | some (.float x) => x.positional
  | _ => []

/-- The file that was asked for. -/
def readNamed (readers : Readers) (env : Environment) (fs : FileSystem) (file : Text) :
    Except LoadError Value :=
  let ext := (Path.extension? file).getD []
  if !extensions.contains ext then .error (.unsupported file ext)
  else match fs.readFile file with
    | .error e => .error (.unreadable (some file) e)
    | .ok content =>
      match readerFor readers env ext content with
      | some v => .ok (readers.order.document v)
      | none => .error (.malformed (some file))

/-- The first of some paths that leads to a file, if one does; whatever its name, it is read as
TOML. -/
def readFirst (readers : Readers) (fs : FileSystem) (paths : List Text) : Except LoadError Value :=
  match paths.find? (hasFile fs) with
  | none => .ok .empty
  | some path =>
    match fs.readFile path with
    | .error e => .error (.unreadable none e)
    | .ok content =>
      match Toml.parse? dialect content with
      | some v => .ok (readers.order.document v)
      | none => .error (.malformed none)

/-- The paths at which a configuration file is looked for: the one asked for, else those in the
project directory, which is decided by the sources without a file. -/
def candidates (fs : FileSystem) (file : Text) (s : Sources) : List Text :=
  if file ≠ [] then [file]
  else
    let root := pathOf (s.find (.top "root"))
    if root = [] then [] else pathsIn (searchDirectory s.env fs root)

/-- The configuration file: the one asked for, else the first that is found. -/
def readConfigFile (readers : Readers) (fs : FileSystem) (file : Text) (s : Sources) :
    Except LoadError Value :=
  if file ≠ [] then readNamed readers s.env fs file else readFirst readers fs (candidates fs file s)

/-- The settings of an invocation.  The sources come without a file. -/
def load (readers : Readers) (fs : FileSystem) (file : Text) (s : Sources) :
    Except LoadError Settings :=
  match readConfigFile readers fs file s with
  | .error e => .error e
  | .ok table =>
    match decode { s with file := table } with
    | .error errors => .error (.undecodable errors)
    | .ok settings =>
      match settings.validate with
      | .error e => .error (.invalid e)
      | .ok _ => .ok settings

/-- Sources with explicitly set values only, and the defaults. -/
def sourcesOf (env : Environment) (given : Value) : Sources :=
  { given := given, bound := [], flags := [], env := env, file := .empty, defaults := defaults }

/-- The table of explicitly set values with one more. -/
def give (given : Value) (key : Text) (v : Value) : Value :=
  let key := Text.lower key
  let without := fun (es : List (Text × Value)) (k : Text) => es.filter fun e => e.1 ≠ k
  match Text.splitOn dot key with
  | [group, name] =>
    let inner := match valueAt? given group with
      | some (.table es) => es
      | _ => []
    .table (without given.entries group ++ [(group, .table (without inner name ++ [(name, v)]))])
  | _ => .table (without given.entries key ++ [(key, v)])

end CrateBump.Config
