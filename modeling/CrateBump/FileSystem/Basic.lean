/-
# The file system

A file system is a finite list of nodes by location, seen from a current directory.  A location is
the list of names from the root, free of links and dots, so each node has exactly one.  The user of
the file system owns every node: of the permission bits, those of the owner decide.

Main statement: writing one file leaves every other node, and all permission bits, as they were
(`node?_setContent`).
-/
import CrateBump.Entries
import CrateBump.Text.Basic

namespace CrateBump

/-- The names on the way from the root to a node. -/
abbrev Location := List Text

/-- Permission bits. -/
abbrev Mode := Nat

namespace Mode

/-- Whether the owner may read. -/
def canRead (m : Mode) : Bool := m.testBit 8

/-- Whether the owner may write. -/
def canWrite (m : Mode) : Bool := m.testBit 7

/-- Whether the owner may search a directory. -/
def canSearch (m : Mode) : Bool := m.testBit 6

/-- Whether the owner may execute a file. -/
def isExecutable (m : Mode) : Bool := m.testBit 6

/-- The bits of a new file: all read, the owner writes. -/
def newFile : Mode := 420

/-- The bits of a new directory: all read and search, the owner writes. -/
def newDirectory : Mode := 493

end Mode

/-- What stands at a location. -/
inductive Node where
  | directory (mode : Mode)
  | file (mode : Mode) (content : Text)
  | link (target : Text)
  deriving DecidableEq, Repr

namespace Node

/-- The permission bits of a node; links have none of their own. -/
def mode? : Node → Option Mode
  | directory m => some m
  | file m _ => some m
  | link _ => none

/-- The content of a regular file. -/
def content? : Node → Option Text
  | file _ c => some c
  | _ => none

/-- A file with another content; other nodes stay. -/
def withContent (content : Text) : Node → Node
  | file m _ => file m content
  | n => n

end Node

/-- Nodes by location, and the current directory. -/
structure FileSystem where
  nodes : List (Location × Node)
  current : Location
  deriving DecidableEq, Repr

namespace FileSystem

/-- The node at a location. -/
def node? (fs : FileSystem) (loc : Location) : Option Node := fs.nodes.lookup loc

/-- The file system with another content for the file at a location. -/
def setContent (fs : FileSystem) (loc : Location) (content : Text) : FileSystem :=
  { fs with nodes := fs.nodes.map fun (l, n) => (l, if l = loc then n.withContent content else n) }

/-- The names directly below a location, in ascending order. -/
def names (fs : FileSystem) (loc : Location) : List Text :=
  Text.sort <| Text.distinct <| fs.nodes.filterMap fun (l, _) =>
    if l.dropLast = loc then l.getLast? else none

/-- Writing a file changes what stands at its location and nothing else. -/
theorem node?_setContent (fs : FileSystem) (loc l : Location) (content : Text) :
    (fs.setContent loc content).node? l
      = if l = loc then (fs.node? l).map (Node.withContent content) else fs.node? l := by
  have hlookup := lookup_map_value (fun l n => if l = loc then n.withContent content else n) fs.nodes l
  refine hlookup.trans ?_
  by_cases h : l = loc
  · simp [h, node?]
  · simp [h, node?]

end FileSystem

end CrateBump
