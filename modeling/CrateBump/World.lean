/-
# The world of a run

What a run can see and change: files, repositories and its input.  What stays the same during a run,
its environment above all, is the host.
-/
import CrateBump.Completion
import CrateBump.Document.Readers
import CrateBump.FileSystem.Access
import CrateBump.Git.Repository
import CrateBump.Log.Render
import CrateBump.Prompt.Reader

namespace CrateBump

/-- What stays the same during a run. -/
structure Host where
  env : Environment
  clock : Log.Clock
  /-- The name that the commit at a position of the line of commits gets. -/
  commitName : Nat → Text
  readers : Readers
  completions : Completions

/-- What a run can change. -/
structure World where
  files : FileSystem
  /-- Repositories by the location of the directory that holds their data. -/
  repositories : List (Location × Git.Repository)
  /-- The standard input. -/
  input : Reader

namespace World

/-- The repository whose data is at a location; one that nothing was recorded in is empty. -/
def repository (w : World) (gitDir : Location) : Git.Repository :=
  (w.repositories.lookup gitDir).getD .empty

/-- The world with another state of the repository at a location. -/
def setRepository (w : World) (gitDir : Location) (r : Git.Repository) : World :=
  { w with repositories := (gitDir, r) :: w.repositories.filter fun e => e.1 != gitDir }

end World

end CrateBump
