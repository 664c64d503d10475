/-
# Causes of failure

The six reasons for which a bump can be refused by design.  Every error of the library either has
one of them or comes from the system underneath; a message starts from the wording given here.
-/
import CrateBump.Text.Utf8

namespace CrateBump

/-- Why a version could not be reported or bumped. -/
inductive Cause where
  /-- A manifest cannot be opened or read. -/
  | manifestUnreadable
  /-- A manifest declares no version in its package section. -/
  | versionNotFound
  /-- The root manifest has no members array. -/
  | membersNotFound
  /-- A version does not consist of three numbers. -/
  | versionFormat
  /-- A kind of bump is none of major, minor and patch. -/
  | invalidKind
  /-- The worktree has changes that a release commit would leave out. -/
  | dirtyWorktree
  deriving DecidableEq, Repr

namespace Cause

/-- The wording of a cause. -/
def message : Cause → Text
  | manifestUnreadable => ascii "manifest could not be read"
  | versionNotFound => ascii "version number not found"
  | membersNotFound => ascii "workspace members not found"
  | versionFormat => ascii "version format must be X.X.X"
  | invalidKind => ascii "invalid version type"
  | dirtyWorktree => ascii "working directory is dirty"

end Cause

end CrateBump
