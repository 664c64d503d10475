/-
# Snapshots

A snapshot says what stands at which path.  Commits and the index record files, with the one
permission bit that is recorded, and links; a look at the worktree also finds files that cannot be
read.  All of them are compared as snapshots: two snapshots are the same if they say the same about
every path.
-/
import CrateBump.Entries
import CrateBump.Text.Basic

namespace CrateBump.Git

/-- What is recorded for a path. -/
inductive Blob where
  | file (executable : Bool) (content : Text)
  | link (target : Text)
  deriving DecidableEq, Repr

/-- What a look at a path of the worktree finds. -/
inductive Sight where
  | blob (blob : Blob)
  /-- A file that cannot be read, which is like nothing that was recorded. -/
  | unread
  deriving DecidableEq, Repr

/-- What stands at slash-separated paths. -/
abbrev Snapshot (α : Type := Blob) := List (Text × α)

namespace Snapshot

variable {α : Type}

/-- What stands at a path. -/
def get? (s : Snapshot α) (path : Text) : Option α := s.lookup path

/-- The snapshot without a path. -/
def erase (s : Snapshot α) (path : Text) : Snapshot α := s.filter fun e => e.1 != path

/-- The snapshot with something put at a path. -/
def put (s : Snapshot α) (path : Text) (a : α) : Snapshot α := (path, a) :: s.erase path

/-- The paths of a snapshot. -/
def paths (s : Snapshot α) : List Text := s.map (·.1)

/-- The paths about which two snapshots disagree, each once. -/
def differences [DecidableEq α] (s t : Snapshot α) : List Text :=
  (Text.distinct (s.paths ++ t.paths)).filter fun path => s.get? path != t.get? path

/-- Whether two snapshots say the same about every path. -/
def same [DecidableEq α] (s t : Snapshot α) : Bool := (differences s t).isEmpty

/-- What a look at the worktree finds where it is as recorded. -/
def seen (s : Snapshot) : Snapshot Sight := s.map fun (path, blob) => (path, .blob blob)

/-! ## What is found after a change -/

theorem get?_seen (s : Snapshot) (path : Text) : s.seen.get? path = (s.get? path).map .blob :=
  lookup_map_value (fun _ blob => Sight.blob blob) s path

theorem get?_erase (s : Snapshot α) (path p : Text) :
    (s.erase path).get? p = if p = path then none else s.get? p := by
  refine (lookup_filter_key (· != path) s p).trans ?_
  by_cases hp : p = path
  · simp [hp]
  · simp [hp, get?]

theorem get?_put (s : Snapshot α) (path p : Text) (a : α) :
    (s.put path a).get? p = if p = path then some a else s.get? p := by
  by_cases hp : p = path
  · subst hp
    simp [put, get?]
  · have hother := get?_erase s path p
    rw [if_neg hp] at hother
    rw [if_neg hp, ← hother, get?, put, List.lookup_cons, beq_false_of_ne hp, get?]

end Snapshot

end CrateBump.Git
