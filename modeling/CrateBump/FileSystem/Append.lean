/-
# Appending to files

A text is put behind what a file holds; a file that is missing is made.  Where something stands in the
way nothing is written, and nobody is told.

Main statement: one file at most changes, and it holds the text behind what it held before
(`appends_appendFile`).
-/
import CrateBump.FileSystem.Edit

namespace CrateBump.FileSystem

/-- Where names lead that end at a missing node.  A link to a missing node stands for that node. -/
def placeFor? (fs : FileSystem) (links : Nat) (start : Location) (names : List Text) :
    Option Location :=
  match names.getLast?, fs.walk true maxLinks start names.dropLast with
  | some name, .ok parent =>
    match links, fs.node? (parent ++ [name]) with
    | _, none => some (parent ++ [name])
    | links + 1, some (.link target) =>
      placeFor? fs links (if isRooted target then [] else parent) (steps target)
    | _, some _ => none
  | _, _ => none

/-- The file system with a new file at a path, if one can be made there. -/
def makeFile? (fs : FileSystem) (path content : Text) : Option FileSystem :=
  match fs.placeFor? maxLinks (if isRooted path then [] else fs.current) (steps path) with
  | none => none
  | some loc =>
    let made := fs.setNode loc (.file Mode.newFile content)
    -- whatever keeps the file from being reached keeps it from being made
    match fs.node? loc, fs.node? loc.dropLast, made.resolve true path with
    | none, some (.directory mode), .ok found => if mode.canWrite ∧ found = loc then some made else none
    | _, _, _ => none

/-- The file system with a text behind what the file at a path holds. -/
def appendFile (fs : FileSystem) (path t : Text) : FileSystem :=
  match fs.resolve true path with
  | .error .notFound => (fs.makeFile? path t).getD fs
  | .error _ => fs
  | .ok loc =>
    match fs.node? loc with
    | some (.file mode content) => if mode.canWrite then fs.setContent loc (content ++ t) else fs
    | _ => fs

/-! ## What changes -/

/-- A node is put at one location, and every other one keeps its node. -/
theorem node?_setNode (fs : FileSystem) (loc l : Location) (node : Node) :
    (fs.setNode loc node).node? l = if l = loc then some node else fs.node? l := by
  have hnodes : (fs.setNode loc node).nodes
      = (fs.nodes.filter fun e => decide (e.1 ≠ loc)) ++ [(loc, node)] := rfl
  rw [node?, hnodes, List.lookup_append, lookup_filter_key fun l => decide (l ≠ loc)]
  by_cases h : l = loc
  · simp [h]
  · simp [h, node?, List.lookup_cons, beq_false_of_ne h]

/-- What comes of appending a text to the file at a path: nothing, or the text stands behind what the
file held, or in a new file.  Everything else stays. -/
inductive Appends (fs : FileSystem) (path t : Text) : FileSystem → Prop where
  | refused : Appends fs path t fs
  | extended {gs : FileSystem} {loc : Location} {mode : Mode} {content : Text}
      (reached : fs.resolve true path = .ok loc)
      (before : fs.node? loc = some (.file mode content))
      (after : gs.node? loc = some (.file mode (content ++ t)))
      (current : gs.current = fs.current)
      (rest : ∀ l, l ≠ loc → gs.node? l = fs.node? l) : Appends fs path t gs
  | made {gs : FileSystem} {loc : Location}
      (reached : gs.resolve true path = .ok loc)
      (before : fs.node? loc = none)
      (after : gs.node? loc = some (.file Mode.newFile t))
      (current : gs.current = fs.current)
      (rest : ∀ l, l ≠ loc → gs.node? l = fs.node? l) : Appends fs path t gs

theorem appends_of_makeFile? {fs gs : FileSystem} {path t : Text}
    (h : fs.makeFile? path t = some gs) : Appends fs path t gs := by
  unfold makeFile? at h
  split at h
  · cases h
  next loc hplace =>
  dsimp only at h
  split at h
  · next mode found hmissing hparent hfound =>
    split at h
    · next hreached =>
      obtain rfl := Option.some.inj h
      obtain ⟨-, rfl⟩ := hreached
      refine .made hfound hmissing ?_ rfl fun l hl => ?_
      · rw [node?_setNode, if_pos rfl]
      · rw [node?_setNode, if_neg hl]
    · cases h
  · cases h

/-- **One file at most changes, and it holds the text behind what it held.** -/
theorem appends_appendFile (fs : FileSystem) (path t : Text) :
    Appends fs path t (fs.appendFile path t) := by
  unfold appendFile
  split
  · cases hmade : fs.makeFile? path t with
    | none => exact .refused
    | some gs => exact appends_of_makeFile? hmade
  · exact .refused
  · next loc hloc =>
    split
    · next mode content hnode =>
      split
      · refine .extended hloc hnode ?_ rfl fun l hl => ?_
        · rw [node?_setContent, if_pos rfl, hnode]
          rfl
        · rw [node?_setContent, if_neg hl]
      · exact .refused
    · exact .refused

end CrateBump.FileSystem
