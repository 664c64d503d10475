/-
# Versions of three numbers

A version is written as three runs of digits between dots.  Each number fits a 64-bit word, and
incrementing the largest one wraps to zero.  Bumping increments one number and clears the ones
behind it; the result is written without leading zeros.
-/
import CrateBump.Version.Kind

namespace CrateBump

/-- The three numbers of a version. -/
structure Triple where
  major : UInt64
  minor : UInt64
  patch : UInt64
  deriving DecidableEq, Repr

/-- Why a version cannot be bumped. -/
inductive VersionError where
  /-- The version has not exactly three parts. -/
  | parts (version : Text)
  /-- A part is not a number below 2^64. -/
  | number (part version : Text)
  /-- The version is well formed but the kind names no component. -/
  | kind (kind : Kind)
  deriving DecidableEq, Repr

namespace VersionError

/-- Format errors come before unknown kinds; there are no others. -/
def cause : VersionError → Cause
  | parts _ => .versionFormat
  | number _ _ => .versionFormat
  | kind _ => .invalidKind

/-- The wording of a version error. -/
def message : VersionError → Text
  | parts version => Cause.versionFormat.message ++ ascii ": got " ++ Text.quoted version
  | number part version =>
    Cause.versionFormat.message ++ ascii ": component " ++ Text.quoted part ++ ascii " of "
      ++ Text.quoted version ++ ascii " is not a non-negative integer"
  | kind k => Cause.invalidKind.message ++ ascii ": " ++ k.name

end VersionError

namespace Triple

/-- The least number that no digit can be appended to. -/
def full : UInt64 := 1844674407370955162

/-- A number with one more digit, unless that is no digit or the result does not fit a word. -/
def appendDigit? (n : UInt64) (b : UInt8) : Option UInt64 :=
  if !Text.isDigit b then none
  else if full ≤ n then none
  else
    let shifted := n * 10
    let appended := shifted + UInt64.ofNat (Decimal.digitValue b)
    if appended < shifted then none else some appended

/-- A run of digits as a 64-bit number, read digit by digit. -/
def number? (part : Text) : Option UInt64 :=
  if part.isEmpty then none else part.foldlM appendDigit? 0

/-- The three numbers of a version text. The first part that is no number is reported. -/
def parse (version : Text) : Except VersionError Triple :=
  match Text.splitOn dot version with
  | [a, b, c] =>
    match number? a, number? b, number? c with
    | some major, some minor, some patch => .ok ⟨major, minor, patch⟩
    | none, _, _ => .error (.number a version)
    | some _, none, _ => .error (.number b version)
    | some _, some _, none => .error (.number c version)
  | _ => .error (.parts version)

/-- The version text of three numbers. -/
def render (v : Triple) : Text :=
  Decimal.ofNat v.major.toNat ++ [dot] ++ Decimal.ofNat v.minor.toNat ++ [dot]
    ++ Decimal.ofNat v.patch.toNat

/-- The triple with one number incremented and those behind it cleared. -/
def bump (v : Triple) : Kind → Option Triple
  | .major => some ⟨v.major + 1, 0, 0⟩
  | .minor => some ⟨v.major, v.minor + 1, 0⟩
  | .patch => some ⟨v.major, v.minor, v.patch + 1⟩
  | .unknown _ => none

end Triple

/-- The version text after a bump. -/
def bumpVersion (version : Text) (kind : Kind) : Except VersionError Text :=
  match Triple.parse version with
  | .error e => .error e
  | .ok v =>
    match v.bump kind with
    | some bumped => .ok bumped.render
    | none => .error (.kind kind)

/-- A version as a semantic version with a leading `v`, without leading zeros. -/
def canonical (version : Text) : Except VersionError Text :=
  match Triple.parse version with
  | .error e => .error e
  | .ok v => .ok (118 :: v.render)

/-- The canonical form of a version, empty if it has none. -/
def canonicalOrEmpty (version : Text) : Text :=
  match canonical version with
  | .error _ => []
  | .ok t => t

end CrateBump
