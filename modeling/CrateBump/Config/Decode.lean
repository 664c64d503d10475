/-
# Converting settings

The values of the sources are converted to texts and truth values.  All conversions are tried, and
all that fail are reported, in the order of the settings.
-/
import CrateBump.Config.Settings
import CrateBump.Config.Sources

namespace CrateBump.Config

/-- Why a value cannot be converted. -/
inductive Problem where
  /-- A text that is no truth value. -/
  | notBoolean
  /-- A value of type `found` where one of type `expected` is needed. -/
  | wrongType (expected found : Text)
  /-- A value of kind `found` in the place of a group. -/
  | notGroup (found : Text)
  deriving DecidableEq, Repr

/-- A value that cannot be converted, with its key. -/
structure DecodeError where
  key : Text
  problem : Problem
  deriving DecidableEq, Repr

namespace DecodeError

/-- The wording of a failed conversion. -/
def message (e : DecodeError) : Text :=
  ascii "'" ++ e.key ++ ascii "' " ++
    match e.problem with
    | .notBoolean => ascii "cannot parse value as 'bool': strconv.ParseBool: invalid syntax"
    | .wrongType expected found =>
      ascii "expected type '" ++ expected ++ ascii "', got unconvertible type '" ++ found
        ++ ascii "'"
    | .notGroup found => ascii "expected a map or struct, got " ++ Text.quoted found

end DecodeError

/-! ## Single values -/

/-- The type of a value in messages. -/
def typeName : Value → Text
  | .text _ => ascii "string"
  | .integer _ => ascii "int64"
  | .float _ => ascii "float64"
  | .boolean _ => ascii "bool"
  | .moment .offsetDateTime => ascii "time.Time"
  | .moment .localDateTime => ascii "toml.LocalDateTime"
  | .moment .localDate => ascii "toml.LocalDate"
  | .moment .localTime => ascii "toml.LocalTime"
  | .null => ascii "nil"
  | .array _ => ascii "[]interface \x7b\x7d"
  | .table _ => ascii "map[string]interface \x7b\x7d"

/-- The kind of a value in messages. -/
def kindName : Value → Text
  | .array _ => ascii "slice"
  | .table _ => ascii "map"
  | .moment _ => ascii "struct"
  | v => typeName v

/-- A value as a text: numbers in decimal, truth values as digits. -/
def asText : Value → Except Problem Text
  | .text t => .ok t
  | .integer n => .ok (Decimal.ofInt n)
  | .float x => .ok x.positional
  | .boolean b => .ok (if b then ascii "1" else ascii "0")
  | .null => .ok []
  | v => .error (.wrongType (ascii "string") (typeName v))

/-- The spellings of true. -/
def trueWords : List Text := ["1", "t", "T", "TRUE", "true", "True"].map ascii

/-- The spellings of false. -/
def falseWords : List Text := ["0", "f", "F", "FALSE", "false", "False"].map ascii

/-- The truth value a word stands for. -/
def wordBoolean? (t : Text) : Option Bool :=
  if trueWords.contains t then some true
  else if falseWords.contains t then some false
  else none

/-- A value as a truth value: numbers by not being zero, the empty text as false. -/
def asBoolean : Value → Except Problem Bool
  | .boolean b => .ok b
  | .integer n => .ok (n != 0)
  | .float x => .ok (!x.isZero)
  | .null => .ok false
  | .text t =>
    match wordBoolean? t with
    | some b => .ok b
    | none => if t.isEmpty then .ok false else .error .notBoolean
  | v => .error (.wrongType (ascii "bool") (typeName v))

/-! ## All settings -/

/-- The value that `read` makes of a key's value, or `zero` with the reason why it makes none. -/
def convert (read : Value → Except Problem α) (zero : α) (key : Key) (v? : Option Value) :
    α × List DecodeError :=
  match v? with
  | none => (zero, [])
  | some v =>
    match read v with
    | .ok a => (a, [])
    | .error p => (zero, [⟨key.full, p⟩])

/-- The value that a whole group has, if it counts as a key. -/
def groupValue? (s : Sources) (group : Text) : Option Value :=
  if s.groupIsKey group then s.find ⟨none, group⟩ else none

/-- Why a group cannot be converted as a whole. -/
def groupErrors (s : Sources) (group : Text) : List DecodeError :=
  match groupValue? s group with
  | none => []
  | some (.table _) => []
  | some (.moment _) => []
  | some v => [⟨group, .notGroup (kindName v)⟩]

/-- The value of a key: for one inside a group its own value, else what the group's value says. -/
def valueOf (s : Sources) (k : Key) : Option Value :=
  match k.group? with
  | none => s.find k
  | some g =>
    match (if s.isKey g k.name then s.find k else none) with
    | some v => some v
    | none =>
      match groupValue? s g with
      | some (.table es) => valueAt? (.table es) k.name
      | _ => none

/-- The text of a key. -/
def textOf (s : Sources) (k : Key) : Text × List DecodeError := convert asText [] k (valueOf s k)

/-- The truth value of a key. -/
def booleanOf (s : Sources) (k : Key) : Bool × List DecodeError :=
  convert asBoolean false k (valueOf s k)

/-- The failures of the keys of a group, or of the group as a whole. -/
def groupFailures (s : Sources) (group : String) (errors : List DecodeError) : List DecodeError :=
  match groupErrors s (ascii group) with
  | [] => errors
  | whole => whole

/-- The settings that the sources define, or all conversions that fail. -/
def decode (s : Sources) : Except (List DecodeError) Settings :=
  let root := textOf s (.top "root")
  let manifest := textOf s (.top "manifest")
  let level := textOf s (.inside "log" "level")
  let format := textOf s (.inside "log" "format")
  let yes := booleanOf s (.top "yes")
  let dryRun := booleanOf s (.top "dry_run")
  let commit := booleanOf s (.inside "git" "commit")
  let tag := booleanOf s (.inside "git" "tag")
  let errors := root.2 ++ manifest.2 ++ groupFailures s "log" (level.2 ++ format.2) ++ yes.2
    ++ dryRun.2 ++ groupFailures s "git" (commit.2 ++ tag.2)
  if errors.isEmpty then
    .ok ⟨root.1, manifest.1, level.1, format.1, yes.1, dryRun.1, commit.1, tag.1⟩
  else .error errors

end CrateBump.Config
