/-
# Ignored paths

Patterns that keep untracked paths out of sight.  A pattern holds below the directory it was written
in; one without a slash is matched against every name of a path, one with a slash against the path
from its start; the last pattern that says anything about a path decides.
-/
import CrateBump.FileSystem.Access
import CrateBump.Git.Wildcard
import CrateBump.Text.Blank

namespace CrateBump.Git

/-- One line of a file of ignore patterns. -/
structure IgnorePattern where
  /-- The directory the pattern was written in. -/
  domain : List Text
  /-- Whether the pattern takes paths back in. -/
  includes : Bool
  /-- Whether the pattern is for directories only. -/
  directoriesOnly : Bool
  /-- The parts of the pattern between slashes. -/
  parts : List Text
  deriving DecidableEq, Repr

namespace IgnorePattern

/-- The pattern a line describes. -/
def ofLine (domain : List Text) (line : Text) : IgnorePattern :=
  let (includes, body) := match line with
    | 33 :: rest => (true, rest)
    | _ => (false, line)
  let body := if Text.endsWith (ascii "\\ ") body then body else Text.dropEndWhile (· == 32) body
  let (directoriesOnly, body) := match body.getLast? with
    | some 47 => (true, body.dropLast)
    | _ => (false, body)
  ⟨domain, includes, directoriesOnly, Text.splitOn slash body⟩

/-- The part that stands for any number of directories. -/
def anyDirectories : Text := ascii "**"

/-- Whether a pattern of one part fits one of the names; on the last name of a file it does not if
it is for directories only. -/
def fitsSomeName (p : IgnorePattern) (part : Text) (isDirectory : Bool) : List Text → Bool
  | [] => false
  | name :: rest =>
    if Wildcard.fits part name then !(p.directoriesOnly && !isDirectory && rest.isEmpty)
    else fitsSomeName p part isDirectory rest

/-- The names behind the first one that fits, or none of them. -/
def dropThroughFit (part : Text) : List Text → Bool × List Text
  | [] => (false, [])
  | name :: rest => if Wildcard.fits part name then (true, rest) else dropThroughFit part rest

/-- Whether the parts fit the names from their start on.  `anywhere` says whether names may be
passed over, `matched` whether the part before fitted. -/
def fitsFromStart (p : IgnorePattern) (isDirectory : Bool) :
    (anywhere matched : Bool) → (parts names : List Text) → Bool
  | _, matched, [], names => matched && !(p.directoriesOnly && !isDirectory && names.isEmpty)
  | anywhere, matched, part :: parts, names =>
    if part = [] then fitsFromStart p isDirectory false matched parts names
    else if part = anyDirectories then
      if parts.isEmpty then matched && !(p.directoriesOnly && !isDirectory && names.isEmpty)
      else fitsFromStart p isDirectory true matched parts names
    else if Text.hasInfix anyDirectories part then false
    else match names with
      | [] => false
      | name :: rest =>
        if anywhere then
          let (found, rest) := dropThroughFit part (name :: rest)
          fitsFromStart p isDirectory false found parts rest
        else if Wildcard.fits part name then fitsFromStart p isDirectory false true parts rest
        else false

/-- Whether the pattern says anything about a path. -/
def applies (p : IgnorePattern) (path : List Text) (isDirectory : Bool) : Bool :=
  if path.length ≤ p.domain.length || !p.domain.isPrefixOf path then false
  else
    let names := path.drop p.domain.length
    match p.parts with
    | [part] => p.fitsSomeName part isDirectory names
    | parts => p.fitsFromStart isDirectory false false parts names

end IgnorePattern

/-- Whether patterns, later ones first, leave a path out. -/
def isIgnored (patterns : List IgnorePattern) (path : List Text) (isDirectory : Bool) : Bool :=
  match patterns.reverse.find? (·.applies path isDirectory) with
  | some p => !p.includes
  | none => false

/-! ## Files of patterns -/

/-- The lines of a file of patterns that are neither comments nor blank. -/
def patternLines (content : Text) : List Text :=
  ((Text.splitOn lineFeed content).map fun line =>
    match line.getLast? with
    | some 13 => line.dropLast
    | _ => line).filter fun line => line.head? != some 35 && !Text.isWhite line

/-- The name of the directory that holds a repository's own data. -/
def gitName : Text := ascii ".git"

/-- The patterns in a file below a directory, none if it cannot be read. -/
def patternsIn (fs : FileSystem) (top : Location) (domain : List Text) (file : Text) :
    List IgnorePattern :=
  match fs.readFile (FileSystem.textOf (top ++ domain) ++ [slash] ++ file) with
  | .ok content => (patternLines content).map (IgnorePattern.ofLine domain)
  | .error _ => []

/-- The names of the directories in a directory. -/
def directoryNames (fs : FileSystem) (loc : Location) : List Text :=
  (fs.names loc).filter fun name =>
    match fs.node? (loc ++ [name]) with
    | some (.directory _) => name != gitName
    | _ => false

/-- All patterns below a directory, at most `depth` directories deep; a directory that is ignored
itself is not searched. -/
def patternsBelow (fs : FileSystem) (top : Location) :
    (depth : Nat) → (domain : List Text) → List IgnorePattern
  | 0, _ => []
  | depth + 1, domain =>
    let own := patternsIn fs top domain (ascii ".git/info/exclude")
      ++ patternsIn fs top domain (ascii ".gitignore")
    (directoryNames fs (top ++ domain)).foldl (fun patterns name =>
      if isIgnored patterns (domain ++ [name]) true then patterns
      else patterns ++ patternsBelow fs top depth (domain ++ [name])) own

/-- All patterns of a worktree. -/
def ignorePatterns (fs : FileSystem) (top : Location) : List IgnorePattern :=
  patternsBelow fs top (fs.nodes.length + 1) []

end CrateBump.Git
