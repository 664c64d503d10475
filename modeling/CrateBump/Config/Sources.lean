/-
# Where settings come from

Five sources may define a setting.  In descending strength: values set explicitly, flags given on the
command line, non-empty environment variables, the configuration file, and the defaults.  A key in a
group is blocked by a stronger source that gives the whole group a value which is no table.
-/
import CrateBump.Document.Value
import CrateBump.Environment
import CrateBump.Text.Lowercase

namespace CrateBump.Config

/-- The name of a setting, inside a group or at the top. -/
structure Key where
  group? : Option Text
  name : Text
  deriving DecidableEq, Repr

namespace Key

/-- A key at the top. -/
def top (name : String) : Key := ⟨none, ascii name⟩

/-- A key inside a group. -/
def inside (group name : String) : Key := ⟨some (ascii group), ascii name⟩

/-- The whole name, with a dot behind the group. -/
def full (k : Key) : Text :=
  match k.group? with
  | none => k.name
  | some g => g ++ [dot] ++ k.name

end Key

/-- What one source says about a key. -/
inductive Finding where
  | value (v : Value)
  | absent
  /-- The source gives the whole group a value that is no table. -/
  | blocked

/-- A value, unless it is null. -/
def Finding.ofOption : Option Value → Finding
  | some .null => .absent
  | some v => .value v
  | none => .absent

/-! ## Tables -/

/-- The entry of a table under a lower-case key.  Keys count in any case; of several, the last one
that is not in lower case wins. -/
def valueAt? (v : Value) (key : Text) : Option Value :=
  let same := v.entries.filter fun e => Text.lower e.1 == key
  match (same.filter fun e => e.1 != key).getLast? with
  | some e => some e.2
  | none => (same.getLast?).map (·.2)

/-- What a table says about a key, groups being tables inside it. -/
def inTable (v : Value) (k : Key) : Finding :=
  match k.group? with
  | none => .ofOption (valueAt? v k.name)
  | some g =>
    match valueAt? v g with
    | none => .absent
    | some .null => .absent
    | some (.table es) => .ofOption (valueAt? (.table es) k.name)
    | some _ => .blocked

/-- What a file says about a key: a key may also be written with its group in one name. -/
def inFile (v : Value) (k : Key) : Finding :=
  match Finding.ofOption (valueAt? v k.full) with
  | .value found => .value found
  | _ => inTable v k

/-! ## Variables -/

/-- The byte of a variable's name for a byte of a key. -/
def variableByte (b : UInt8) : UInt8 := if b == dot || b == 45 then 95 else Text.upperByte b

/-- The environment variable of a key. -/
def variableName (key : Text) : Text := ascii "CARGOBUMP_" ++ key.map variableByte

/-- What the environment says about a key. -/
def inEnvironment (env : Environment) (k : Key) : Finding :=
  let own := env.get (variableName k.full)
  if !own.isEmpty then .value (.text own)
  else match k.group? with
    | none => .absent
    | some g => if (env.get (variableName g)).isEmpty then .absent else .blocked

/-! ## Sources -/

/-- All sources of settings. -/
structure Sources where
  /-- Values set explicitly, groups as tables. -/
  given : Value
  /-- The whole names of the keys that have a flag. -/
  bound : List Text
  /-- The values of the flags that were given. -/
  flags : List (Text × Value)
  env : Environment
  /-- The configuration file. -/
  file : Value
  /-- The defaults, groups as tables. -/
  defaults : Value

namespace Sources

/-- What the flags say about a key. -/
def inFlags (s : Sources) (k : Key) : Finding := .ofOption (s.flags.lookup k.full)

/-- What each source says about a key, strongest first. -/
def findings (s : Sources) (k : Key) : List Finding :=
  [inTable s.given k, s.inFlags k, inEnvironment s.env k, inFile s.file k, inTable s.defaults k]

/-- The first value among findings, unless a block comes before it. -/
def firstValue : List Finding → Option Value
  | [] => none
  | .value v :: _ => some v
  | .absent :: rest => firstValue rest
  | .blocked :: _ => none

/-- The value of a key. -/
def find (s : Sources) (k : Key) : Option Value := firstValue (s.findings k)

/-! ## Which keys exist -/

/-- Whether a table gives a whole group a value that is no table. -/
def blocksGroup (v : Value) (group : Text) : Bool :=
  match valueAt? v group with
  | none => false
  | some found => !found.isTable

/-- Whether a group as a whole counts as a key. -/
def groupIsKey (s : Sources) (group : Text) : Bool :=
  blocksGroup s.given group || blocksGroup s.file group

/-- Whether a key inside a group counts as a key.  The defaults below a group are dropped where the
group as a whole has a value. -/
def isKey (s : Sources) (group name : Text) : Bool :=
  let k : Key := ⟨some group, name⟩
  let givenHas := match valueAt? s.given group with
    | some (.table es) => (valueAt? (.table es) name).isSome
    | _ => false
  givenHas || (s.bound.contains k.full && !blocksGroup s.given group)
    || (valueAt? s.file k.full).isSome
    || (!blocksGroup s.given group && !blocksGroup s.file group)

end Sources

end CrateBump.Config
