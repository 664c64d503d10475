/-
# Resolving paths

A path text is walked name by name.  Every directory on the way must exist and be searchable; a link
is replaced by its target, and a walk that meets more than forty links is given up.  Whether and
where a walk ends depends on names, kinds of nodes, link targets and permission bits only, never on
what files contain.
-/
import CrateBump.FileSystem.Basic
import CrateBump.Path

namespace CrateBump

/-- Why the system refuses an operation. -/
inductive Reason where
  | notFound
  | notDirectory
  | isDirectory
  | denied
  | nameTooLong
  | tooManyLinks
  | invalid
  deriving DecidableEq, Repr

namespace Reason

/-- The system's wording. -/
def message : Reason → Text
  | notFound => ascii "no such file or directory"
  | notDirectory => ascii "not a directory"
  | isDirectory => ascii "is a directory"
  | denied => ascii "permission denied"
  | nameTooLong => ascii "file name too long"
  | tooManyLinks => ascii "too many levels of symbolic links"
  | invalid => ascii "invalid argument"

end Reason

namespace FileSystem

/-- The names a path text asks for.  A trailing slash asks for a directory, as a trailing dot
does. -/
def steps (path : Text) : List Text :=
  let named := (Text.splitOn slash path).filter fun t => !t.isEmpty
  if path.getLast? = some slash && !named.isEmpty then named ++ [Path.here] else named

/-- Whether a path text starts at the root. -/
def isRooted (path : Text) : Bool := path.head? == some slash

/-- Why names below a location cannot be looked up, if so. -/
def obstacle? (fs : FileSystem) (loc : Location) : Option Reason :=
  match fs.node? loc with
  | none => some .notFound
  | some (.directory m) => if m.canSearch then none else some .denied
  | some _ => some .notDirectory

/-- The longest name of a node. -/
def maxName : Nat := 255

/-- Walks `steps` from a location.  `onLink` continues a walk behind a link; with `follow` false a
link as the very last step is the result itself. -/
def walkWith (fs : FileSystem) (follow : Bool)
    (onLink : Location → List Text → Except Reason Location) :
    Location → List Text → Except Reason Location
  | loc, [] => .ok loc
  | loc, name :: rest =>
    match fs.obstacle? loc with
    | some reason => .error reason
    | none =>
      if name = Path.here then walkWith fs follow onLink loc rest
      else if name = Path.up then walkWith fs follow onLink loc.dropLast rest
      else if maxName < name.length then .error .nameTooLong
      else match fs.node? (loc ++ [name]) with
        | none => .error .notFound
        | some (.link target) =>
          if rest.isEmpty && !follow then .ok (loc ++ [name])
          else onLink (if isRooted target then [] else loc) (steps target ++ rest)
        | some _ => walkWith fs follow onLink (loc ++ [name]) rest

/-- Walks `steps` from a location through at most `links` links. -/
def walk (fs : FileSystem) (follow : Bool) :
    (links : Nat) → Location → List Text → Except Reason Location
  | 0 => walkWith fs follow fun _ _ => .error .tooManyLinks
  | links + 1 => walkWith fs follow (walk fs follow links)

/-- The most links the system follows in one walk. -/
def maxLinks : Nat := 40

/-- The longest path text, its end mark included. -/
def maxPath : Nat := 4096

/-- The location a path text leads to. -/
def resolve (fs : FileSystem) (follow : Bool) (path : Text) : Except Reason Location :=
  if path.contains 0 then .error .invalid
  else if path = [] then .error .notFound
  else if maxPath ≤ path.length then .error .nameTooLong
  else walk fs follow maxLinks (if isRooted path then [] else fs.current) (steps path)

/-- The text of a location. -/
def textOf (loc : Location) : Text := slash :: Text.joinWith [slash] loc

/-- The most links followed when a path is resolved by looking at each link in turn. -/
def maxRealLinks : Nat := 255

/-- The location an absolute path text leads to, with its links looked at one by one. -/
def realLocation (fs : FileSystem) (path : Text) : Except Reason Location :=
  if path.contains 0 then .error .invalid
  else walk fs true maxRealLinks [] (steps path)

end FileSystem

end CrateBump
