/-
# Where a manifest declares its version

A manifest is searched as text.  The package section starts behind the first line that begins with
`[package]` and ends before the next line that begins with `[`; the declared version is the quoted
value of the first line of that section that reads `version = "…"`.  Blanks may stand around each
part.  The rest of the header line counts as the first line of the section.

A site cuts the manifest in three: what precedes the version, the version, and what follows it.
-/
import CrateBump.Text.Basic

namespace CrateBump

/-! ## Searching line starts -/

/-- The first line start at which `form` recognises the text, with the text before it.  `fresh` says
whether the text given starts a line. -/
def searchLines (form : Text → Option α) : (fresh : Bool) → Text → Option (Text × α)
  | true, [] => (form []).map fun found => ([], found)
  | false, [] => none
  | fresh, b :: rest =>
    match (if fresh then form (b :: rest) else none) with
    | some found => some ([], found)
    | none => (searchLines form (b == lineFeed) rest).map fun (before, found) => (b :: before, found)

/-! ## The three forms -/

/-- The blanks at the front of a text. -/
def leadBlanks (t : Text) : Text := t.takeWhile Text.isBlank

/-- The word of the package table's header. -/
def packageWord : Text := ascii "[package]"

/-- The key of the version. -/
def versionWord : Text := ascii "version"

/-- A package header at the front: the header and what follows it. -/
def packageHeader? (t : Text) : Option (Text × Text) :=
  (Text.dropLead? packageWord (Text.skipBlanks t)).map fun rest => (leadBlanks t ++ packageWord, rest)

/-- Whether a table header starts at the front. -/
def isTableHeader (t : Text) : Bool := (Text.skipBlanks t).head? == some 91

/-- Whether a byte may stand inside a version value. -/
def isVersionByte (b : UInt8) : Bool := b != doubleQuote && b != lineFeed

/-- A version assignment at the front: the text up to the value, the value, and what follows it,
its closing quote first. -/
def versionAssignment? (t : Text) : Option (Text × Text × Text) :=
  match Text.dropLead? versionWord (Text.skipBlanks t) with
  | none => none
  | some afterKey =>
    match Text.skipBlanks afterKey with
    | 61 :: afterEquals =>
      match Text.skipBlanks afterEquals with
      | 34 :: value =>
        match value.dropWhile isVersionByte with
        | 34 :: rest =>
          some (leadBlanks t ++ versionWord ++ leadBlanks afterKey ++ [61] ++ leadBlanks afterEquals
            ++ [doubleQuote], value.takeWhile isVersionByte, doubleQuote :: rest)
        | _ => none
      | _ => none
    | _ => none

/-! ## The site -/

/-- A manifest cut at its declared version. -/
structure VersionSite where
  before : Text
  version : Text
  after : Text
  deriving DecidableEq, Repr

namespace VersionSite

/-- The offset of the first byte of the version. -/
def start (s : VersionSite) : Nat := s.before.length

/-- The offset behind the last byte of the version. -/
def stop (s : VersionSite) : Nat := s.before.length + s.version.length

/-- The manifest with `version` in the place of the declared one. -/
def fill (s : VersionSite) (version : Text) : Text := s.before ++ version ++ s.after

end VersionSite

/-- A text cut before its first line that starts a table. -/
def splitSection (t : Text) : Text × Text :=
  match searchLines (fun line => if isTableHeader line then some line else none) true t with
  | some (inside, beyond) => (inside, beyond)
  | none => (t, [])

/-- The declared version of a manifest, if it has one. -/
def findVersion? (content : Text) : Option VersionSite :=
  match searchLines packageHeader? true content with
  | none => none
  | some (before, header, rest) =>
    let (inside, beyond) := splitSection rest
    match searchLines versionAssignment? true inside with
    | none => none
    | some (skipped, lead, version, tail) =>
      some ⟨before ++ header ++ skipped ++ lead, version, tail ++ beyond⟩

/-- The manifest with its declared version replaced; every other byte stays. -/
def replaceVersion? (content newVersion : Text) : Option Text :=
  (findVersion? content).map (·.fill newVersion)

end CrateBump
