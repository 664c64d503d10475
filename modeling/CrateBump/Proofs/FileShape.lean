/-
# The shape of a file system

Names, kinds of nodes, link targets and permission bits are the shape of a file system; what files
contain is not.  Where a path leads, and whether it can be read or written, is decided by the shape
alone, so a program that only replaces contents never changes it.

Main statement: paths lead to the same locations in file systems of the same shape
(`SameShape.resolve_eq`).
-/
import CrateBump.FileSystem.Access

namespace CrateBump.FileSystem

/-- Everywhere the same node, or two files with the same permission bits. -/
structure SameShape (fs gs : FileSystem) : Prop where
  current : gs.current = fs.current
  node : ∀ loc, gs.node? loc = fs.node? loc
    ∨ ∃ mode c c', fs.node? loc = some (.file mode c) ∧ gs.node? loc = some (.file mode c')

/-! ## Walking -/

namespace SameShape

variable {fs gs : FileSystem} (h : SameShape fs gs)
include h

theorem obstacle?_eq (loc : Location) : gs.obstacle? loc = fs.obstacle? loc := by
  rcases h.node loc with heq | ⟨mode, c, c', hfs, hgs⟩
  · rw [obstacle?, obstacle?, heq]
  · rw [obstacle?, obstacle?, hfs, hgs]

theorem walkWith_eq (follow : Bool) (onLink : Location → List Text → Except Reason Location)
    (loc : Location) (names : List Text) :
    walkWith gs follow onLink loc names = walkWith fs follow onLink loc names := by
  induction names generalizing loc with
  | nil => rfl
  | cons name rest ih =>
    rw [walkWith, walkWith, h.obstacle?_eq, ih loc, ih loc.dropLast]
    -- the only other look at a node is the one at the name itself
    rcases h.node (loc ++ [name]) with heq | ⟨mode, c, c', hfs, hgs⟩
    · rw [heq, ih (loc ++ [name])]
    · simp only [hfs, hgs, ih (loc ++ [name])]

/-- Where a path leads depends on the shape of the files alone, not on their contents. -/
theorem walk_eq (follow : Bool) (links : Nat) : walk gs follow links = walk fs follow links := by
  induction links with
  | zero =>
    funext loc names
    exact h.walkWith_eq follow _ loc names
  | succ links ih =>
    -- a link is followed by a walk that may follow one link less
    funext loc names
    rw [walk, walk, ih]
    exact h.walkWith_eq follow _ loc names

/-- Paths lead to the same locations, or fail for the same reasons. -/
theorem resolve_eq (follow : Bool) (path : Text) :
    gs.resolve follow path = fs.resolve follow path := by
  rw [resolve, resolve, h.walk_eq, h.current]

end SameShape

/-! ## Reading and writing -/

/-- A file is read exactly if its path leads to a readable file, and then its content is what is
read. -/
theorem readFile_eq_ok_iff {fs : FileSystem} {path content : Text} :
    fs.readFile path = .ok content
      ↔ ∃ loc mode, fs.resolve true path = .ok loc ∧ fs.node? loc = some (.file mode content)
        ∧ mode.canRead = true := by
  constructor
  · intro h
    unfold readFile at h
    split at h
    · cases h
    next loc hloc =>
    split at h
    · next mode c hnode =>
      split at h
      · next hread =>
        cases h
        exact ⟨loc, mode, hloc, hnode, hread⟩
      · cases h
    · split at h <;> cases h
    · cases h
  · rintro ⟨loc, mode, hloc, hnode, hread⟩
    simp only [readFile, hloc, hnode, hread, if_true]

/-- A path to a file can be opened for writing exactly if its owner may write it. -/
theorem openForWriting_of_file {fs : FileSystem} {path content : Text} {loc : Location}
    {mode : Mode} (hloc : fs.resolve true path = .ok loc)
    (hnode : fs.node? loc = some (.file mode content)) :
    fs.openForWriting path
      = if mode.canWrite = true then .ok loc else .error ⟨.opens, path, .denied⟩ := by
  simp only [openForWriting, hloc, hnode]

end CrateBump.FileSystem
