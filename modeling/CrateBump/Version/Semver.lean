/-
# Semantic versions

Which texts are semantic versions with a leading `v`: one to three numbers without leading zeros,
and, behind all three only, an optional pre-release and optional build identifiers.  Of two versions
the one with the first greater number takes precedence; with the same numbers a release comes behind
its pre-releases.  Build identifiers do not count.
-/
import CrateBump.Text.Basic

namespace CrateBump.Semver

/-- A byte of an identifier: a digit, a letter or a hyphen. -/
def isIdentifierByte (b : UInt8) : Bool := Text.isDigit b || Text.isLetter b || b == 45

/-- A number without a leading zero: the digits at the front and what follows them. -/
def number? (t : Text) : Option (Text × Text) :=
  let digits := t.takeWhile Text.isDigit
  match digits with
  | [] => none
  | [_] => some (digits, t.dropWhile Text.isDigit)
  | first :: _ => if first == 48 then none else some (digits, t.dropWhile Text.isDigit)

/-- A dot and a number at the front, and what follows them. -/
def dotNumber? : Text → Option (Text × Text)
  | [] => none
  | b :: rest => if b == dot then number? rest else none

/-- Whether an identifier is non-empty and of identifier bytes. -/
def isIdentifier (t : Text) : Bool := !t.isEmpty && t.all isIdentifierByte

/-- Whether an identifier of digits only has a leading zero. -/
def hasLeadingZero (t : Text) : Bool :=
  t.all Text.isDigit && 1 < t.length && t.head? == some 48

/-- Whether the text is a dotted list of identifiers, for a pre-release none of them numeric with a
leading zero. -/
def isDotted (preRelease : Bool) (t : Text) : Bool :=
  (Text.splitOn dot t).all fun part =>
    isIdentifier part && !(preRelease && hasLeadingZero part)

/-- Whether the text may follow the three numbers. -/
def isSuffix (t : Text) : Bool :=
  match t with
  | [] => true
  | 45 :: rest =>
    let pre := rest.takeWhile (· != 43)
    isDotted true pre &&
      match rest.dropWhile (· != 43) with
      | [] => true
      | _ :: build => isDotted false build
  | 43 :: build => isDotted false build
  | _ => false

/-- Whether the text is a semantic version with a leading `v`. -/
def isValid (t : Text) : Bool :=
  match t with
  | 118 :: rest =>
    match number? rest with
    | none => false
    | some (_, []) => true
    | some (_, rest) =>
      match dotNumber? rest with
      | none => false
      | some (_, []) => true
      | some (_, rest) =>
        match dotNumber? rest with
        | none => false
        | some (_, rest) => isSuffix rest
  | _ => false

/-! ## Precedence -/

/-- What the precedence of a version depends on. -/
structure Parts where
  major : Text
  minor : Text
  patch : Text
  /-- The identifiers of the pre-release; a release has none. -/
  preRelease : List Text
  deriving DecidableEq, Repr

/-- The parts of a valid version.  A number that is left out is zero. -/
def parts? (t : Text) : Option Parts :=
  if isValid t then
    let body := (t.drop 1).takeWhile (· != 43)
    let preRelease := (body.dropWhile (· != 45)).drop 1
    let identifiers := if preRelease.isEmpty then [] else Text.splitOn dot preRelease
    match Text.splitOn dot (body.takeWhile (· != 45)) with
    | major :: minor :: patch :: _ => some ⟨major, minor, patch, identifiers⟩
    | [major, minor] => some ⟨major, minor, [48], identifiers⟩
    | [major] => some ⟨major, [48], [48], identifiers⟩
    | [] => none
  else none

/-- Comparison of texts byte by byte. -/
def compareTexts (s t : Text) : Ordering :=
  if s = t then .eq else if Text.le s t then .lt else .gt

/-- Comparison of numbers without leading zeros: more digits make the greater one, and with as many
digits the first difference decides. -/
def compareNumbers (s t : Text) : Ordering :=
  if s.length < t.length then .lt else if t.length < s.length then .gt else compareTexts s t

/-- Comparison of the identifiers of pre-releases: numbers come before all others. -/
def compareIdentifiers (s t : Text) : Ordering :=
  match s.all Text.isDigit, t.all Text.isDigit with
  | true, true => compareNumbers s t
  | true, false => .lt
  | false, true => .gt
  | false, false => compareTexts s t

/-- Comparison identifier by identifier; what another one continues comes before it. -/
def compareDotted : List Text → List Text → Ordering
  | [], [] => .eq
  | [], _ :: _ => .lt
  | _ :: _, [] => .gt
  | s :: ss, t :: ts => (compareIdentifiers s t).then (compareDotted ss ts)

/-- Comparison of pre-releases; a release comes behind all of them. -/
def comparePreReleases (ss ts : List Text) : Ordering :=
  match ss, ts with
  | [], [] => .eq
  | [], _ :: _ => .gt
  | _ :: _, [] => .lt
  | ss, ts => compareDotted ss ts

/-- The order of precedence.  What is no version comes before all versions. -/
def compare (s t : Text) : Ordering :=
  match parts? s, parts? t with
  | none, none => .eq
  | none, some _ => .lt
  | some _, none => .gt
  | some p, some q =>
    (compareNumbers p.major q.major).then <| (compareNumbers p.minor q.minor).then <|
      (compareNumbers p.patch q.patch).then (comparePreReleases p.preRelease q.preRelease)

end CrateBump.Semver
