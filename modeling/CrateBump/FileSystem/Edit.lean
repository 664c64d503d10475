/-
# Building a file system

Making and removing nodes, and listing the regular files below a directory.  Paths are walked as in
every other operation; directories that are missing on the way are made.
-/
import CrateBump.FileSystem.Access

namespace CrateBump.FileSystem

/-- The file system that holds a root directory and the directories on the way to `current`. -/
def bare (current : Location) : FileSystem :=
  { nodes := (List.range (current.length + 1)).map fun n =>
      (current.take n, .directory Mode.newDirectory)
    current := current }

/-- The file system with a node at a location, in the place of the one there. -/
def setNode (fs : FileSystem) (loc : Location) (node : Node) : FileSystem :=
  { fs with nodes := fs.nodes.filter (fun (l, _) => l ≠ loc) ++ [(loc, node)] }

/-- Makes the directories `names` one below the other, as far as they are missing. -/
def makeDirectoriesAt (fs : FileSystem) : Location → List Text → FileSystem × Location
  | loc, [] => (fs, loc)
  | loc, name :: rest =>
    match walk fs true maxLinks loc [name] with
    | .ok found => makeDirectoriesAt fs found rest
    | .error _ =>
      let made := loc ++ [name]
      makeDirectoriesAt (fs.setNode made (.directory Mode.newDirectory)) made rest

/-- Makes a directory and those on the way to it. -/
def makeDirectories (fs : FileSystem) (path : Text) : FileSystem :=
  (makeDirectoriesAt fs (if isRooted path then [] else fs.current) (steps path)).1

/-- Puts a node at a path, making the directories on the way. -/
def place (fs : FileSystem) (path : Text) (node : Node) : FileSystem :=
  match (steps path).getLast? with
  | none => fs
  | some name =>
    let start := if isRooted path then [] else fs.current
    let (fs, parent) := makeDirectoriesAt fs start (steps path).dropLast
    fs.setNode (parent ++ [name]) node

/-- Writes a file, over an existing one in place, else as a new one. -/
def putFile (fs : FileSystem) (path content : Text) : FileSystem :=
  match fs.resolve true path with
  | .ok loc => fs.setContent loc content
  | .error _ => fs.place path (.file Mode.newFile content)

/-- Removes what a path leads to, with all that is below it. -/
def remove (fs : FileSystem) (path : Text) : FileSystem :=
  match fs.resolve false path with
  | .ok loc => { fs with nodes := fs.nodes.filter fun (l, _) => !loc.isPrefixOf l }
  | .error _ => fs

/-- The regular files below a location by their relative path, without anything named `excluded`. -/
def filesBelow (fs : FileSystem) (loc : Location) (excluded : Text) : List (Text × Text) :=
  fs.nodes.filterMap fun (l, n) =>
    match n.content? with
    | none => none
    | some content =>
      if loc.isPrefixOf l && loc.length < l.length && !(l.drop loc.length).contains excluded then
        some (Text.joinWith [slash] (l.drop loc.length), content)
      else none

end CrateBump.FileSystem
