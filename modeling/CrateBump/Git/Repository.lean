/-
# Repositories

A repository holds a line of commits, tags that point at them, and the index: the snapshot that the
next commit will record.
-/
import CrateBump.Git.Snapshot

namespace CrateBump.Git

/-- Who made a commit. -/
structure Identity where
  name : Text
  email : Text
  deriving DecidableEq, Repr

namespace Identity

/-- The text without the bytes that would break a commit's author line. -/
def cleaned (t : Text) : Text := t.filter fun b => b != 60 && b != 62 && b != lineFeed

/-- The text without spaces at its ends. -/
def unspaced (t : Text) : Text := Text.dropEndWhile (· == 32) (t.dropWhile (· == 32))

/-- The identity as a commit records it. -/
def recorded (i : Identity) : Identity := ⟨unspaced (cleaned i.name), cleaned i.email⟩

end Identity

/-- A recorded snapshot with a message. -/
structure Commit where
  message : Text
  author : Identity
  tree : Snapshot
  deriving DecidableEq, Repr

/-- Commits from oldest to newest, tags by name with the position of their commit, and the index. -/
structure Repository where
  commits : List Commit
  tags : List (Text × Nat)
  index : Snapshot
  deriving DecidableEq, Repr

namespace Repository

/-- A repository without any commit. -/
def empty : Repository := ⟨[], [], []⟩

/-- The snapshot of the newest commit. -/
def headTree (r : Repository) : Snapshot := (r.commits.getLast?.map Commit.tree).getD []

/-- Why no commit is made. -/
inductive CommitError where
  /-- The commit would record nothing new. -/
  | nothingNew
  deriving DecidableEq, Repr

/-- The repository after a commit of its index. -/
def commit (r : Repository) (message : Text) (author : Identity) : Except CommitError Repository :=
  if Snapshot.same r.index r.headTree then .error .nothingNew
  else .ok { r with commits := r.commits ++ [⟨message, author.recorded, r.index⟩] }

/-- Why no tag is made. -/
inductive TagError where
  | invalidName
  | exists
  deriving DecidableEq, Repr

/-- The repository after its newest commit was tagged.  A name that ends like a lock file cannot be
stored. -/
def tagHead (r : Repository) (name : Text) : Except TagError Repository :=
  if Text.endsWith (ascii ".lock") name then .error .invalidName
  else if (r.tags.lookup name).isSome then .error .exists
  else .ok { r with tags := r.tags ++ [(name, r.commits.length - 1)] }

/-- The paths each commit changes against the one before it, in ascending order. -/
def history (r : Repository) : List (Commit × List Text) :=
  (r.commits.zip ([] :: r.commits.map Commit.tree)).map fun (c, before) =>
    (c, Text.sort (Snapshot.differences before c.tree))

end Repository

end CrateBump.Git
