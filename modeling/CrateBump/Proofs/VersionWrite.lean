/-
# Writing versions

Writing a member's version finds a file and puts a version in its place there.  Which file, and
whether the write succeeds, depends on the shape of the file system and on which files declare a
version, and versions that were written before change neither.  A file system in which versions were
written is therefore described by the one it started as and, for each location, the version that was
last written there (`Revised`).

Main statements: what can be written stays the same however many versions were written before
(`Revised.versionTarget_eq`), and one write moves one location on (`Revised.setVersion`).
-/
import CrateBump.Plan
import CrateBump.Proofs.FileShape
import CrateBump.Proofs.VersionRewrite
import Mathlib.Logic.Function.Basic

namespace CrateBump

/-! ## Texts and nodes with another version -/

/-- A manifest with the version `v?`, if one is given and it declares one. -/
def revisedText (v? : Option Text) (content : Text) : Text :=
  match v? with
  | none => content
  | some v => (replaceVersion? content v).getD content

theorem revisedText_of_find {content : Text} {site : VersionSite}
    (h : findVersion? content = some site) (v : Text) :
    revisedText (some v) content = site.fill v := by
  rw [revisedText, replaceVersion?_eq_fill h, Option.getD_some]

/-- A version is found in a revised manifest where one was declared before, and it is the new one. -/
theorem findVersion?_revisedText {v? : Option Text} (hv : ∀ v, v? = some v → IsVersionText v)
    (content : Text) :
    findVersion? (revisedText v? content)
      = (findVersion? content).map fun site => { site with version := v?.getD site.version } := by
  cases v? with
  | none => cases hfind : findVersion? content <;> simp [revisedText, hfind]
  | some v =>
    cases hfind : findVersion? content with
    | none => simp [revisedText, replaceVersion?, hfind]
    | some site =>
      rw [revisedText_of_find hfind, findVersion?_fill hfind (hv v rfl)]
      rfl

/-- The last version counts. -/
theorem revisedText_revisedText {v? : Option Text} (hv : ∀ v, v? = some v → IsVersionText v)
    (w content : Text) :
    revisedText (some w) (revisedText v? content) = revisedText (some w) content := by
  cases v? with
  | none => rfl
  | some v =>
    cases hfind : findVersion? content with
    | none => simp [revisedText, replaceVersion?, hfind]
    | some site =>
      rw [revisedText_of_find hfind v, revisedText_of_find hfind w, revisedText,
        replaceVersion?_fill hfind (hv v rfl), Option.getD_some]

namespace Node

/-- A file with another version in it; other nodes stay. -/
def withVersion (v? : Option Text) : Node → Node
  | file mode content => file mode (revisedText v? content)
  | n => n

theorem map_withVersion_none (n? : Option Node) : n?.map (withVersion none) = n? := by
  cases n? with
  | none => rfl
  | some n => cases n <;> rfl

@[simp] theorem mode?_withVersion (v? : Option Text) (n : Node) :
    (n.withVersion v?).mode? = n.mode? := by
  cases n <;> rfl

/-- Why the version in a node that `path` leads to cannot be written, if so. -/
def refusal? (path : Text) : Node → Option ManifestError
  | directory mode =>
    some (.unreadable
      (if mode.canRead then ⟨.reads, path, .isDirectory⟩ else ⟨.opens, path, .denied⟩))
  | link _ => some (.unreadable ⟨.opens, path, .notFound⟩)
  | file mode content =>
    if mode.canRead then
      if (findVersion? content).isNone then some (.noVersion path)
      else if mode.canWrite then none
      else some (.unwritable path ⟨.opens, path, .denied⟩)
    else some (.unreadable ⟨.opens, path, .denied⟩)

/-- A version that was written before is no reason to refuse another one, nor does it remove one. -/
theorem refusal?_withVersion (path : Text) {v? : Option Text}
    (hv : ∀ v, v? = some v → IsVersionText v) (n : Node) :
    (n.withVersion v?).refusal? path = n.refusal? path := by
  cases n with
  | directory mode => rfl
  | link target => rfl
  | file mode content =>
    rw [withVersion, refusal?, refusal?, findVersion?_revisedText hv, Option.isNone_map]

/-- A write is not refused exactly by a readable and writable file in which a version is found. -/
theorem refusal?_eq_none_iff {path : Text} {n : Node} :
    n.refusal? path = none
      ↔ ∃ mode content site, n = file mode content ∧ mode.canRead = true ∧ mode.canWrite = true
        ∧ findVersion? content = some site := by
  constructor
  · intro h
    cases n with
    | directory mode => cases h
    | link target => cases h
    | file mode content =>
      rw [refusal?] at h
      split at h
      · next hread =>
        split at h
        · cases h
        next hfind =>
        split at h
        · next hwrite =>
          rw [Option.isNone_iff_eq_none, ← ne_eq, Option.ne_none_iff_exists'] at hfind
          obtain ⟨site, hsite⟩ := hfind
          exact ⟨mode, content, site, rfl, hread, hwrite, hsite⟩
        · cases h
      · cases h
  · rintro ⟨mode, content, site, rfl, hread, hwrite, hfind⟩
    rw [refusal?, if_pos hread, hfind, if_neg (by simp), if_pos hwrite]

end Node

/-! ## One write -/

namespace FileSystem

/-- The file system with another version in the file at a location. -/
def setVersion (fs : FileSystem) (loc : Location) (v : Text) : FileSystem :=
  match (fs.node? loc).bind Node.content? with
  | some content => fs.setContent loc (revisedText (some v) content)
  | none => fs

/-- Writing a version revises the node at one location and no other. -/
theorem node?_setVersion (fs : FileSystem) (loc l : Location) (v : Text) :
    (fs.setVersion loc v).node? l
      = if l = loc then (fs.node? l).map (Node.withVersion (some v)) else fs.node? l := by
  by_cases hl : l = loc
  · subst hl
    rw [if_pos rfl, setVersion]
    cases hnode : fs.node? l with
    | none => exact hnode
    | some n =>
      cases n with
      | file mode content => simp [Node.content?, node?_setContent, hnode, Node.withContent,
          Node.withVersion]
      | directory mode => exact hnode
      | link target => exact hnode
  · rw [if_neg hl, setVersion]
    split
    · rw [node?_setContent, if_neg hl]
    · rfl

theorem current_setVersion (fs : FileSystem) (loc : Location) (v : Text) :
    (fs.setVersion loc v).current = fs.current := by
  rw [setVersion]
  split <;> rfl

end FileSystem

namespace Workspace

/-- The location of the file that writing a member's version changes, or why there is none. -/
def versionTarget (ws : Workspace) (fs : FileSystem) (member : Text) :
    Except ManifestError Location :=
  match fs.resolve true (ws.manifestPath member) with
  | .error reason => .error (.unreadable ⟨.stats, ws.manifestPath member, reason⟩)
  | .ok loc =>
    match fs.node? loc with
    | none => .error (.unreadable ⟨.stats, ws.manifestPath member, .notFound⟩)
    | some n =>
      match n.refusal? (ws.manifestPath member) with
      | some e => .error e
      | none => .ok loc

/-- A member has a location to write to exactly if its path leads to a readable and writable file in
which a version is found. -/
theorem versionTarget_eq_ok_iff {ws : Workspace} {fs : FileSystem} {member : Text}
    {loc : Location} :
    ws.versionTarget fs member = .ok loc
      ↔ fs.resolve true (ws.manifestPath member) = .ok loc
        ∧ ∃ mode content site, fs.node? loc = some (.file mode content) ∧ mode.canRead = true
          ∧ mode.canWrite = true ∧ findVersion? content = some site := by
  constructor
  · intro h
    unfold versionTarget at h
    split at h
    · cases h
    next loc' hloc =>
    split at h
    · cases h
    next n hnode =>
    split at h
    · cases h
    next hrefusal =>
    obtain rfl := Except.ok.inj h
    obtain ⟨mode, content, site, rfl, hread, hwrite, hfind⟩ := Node.refusal?_eq_none_iff.1 hrefusal
    exact ⟨hloc, mode, content, site, hnode, hread, hwrite, hfind⟩
  · rintro ⟨hloc, mode, content, site, hnode, hread, hwrite, hfind⟩
    have hrefusal : (Node.file mode content).refusal? (ws.manifestPath member) = none :=
      Node.refusal?_eq_none_iff.2 ⟨mode, content, site, rfl, hread, hwrite, hfind⟩
    simp only [versionTarget, hloc, hnode, hrefusal]

/-- Writing a version sets it at the target. -/
theorem writeVersion_eq (ws : Workspace) (fs : FileSystem) (member v : Text) :
    ws.writeVersion fs member v
      = (ws.versionTarget fs member).map fun loc => fs.setVersion loc v := by
  unfold writeVersion versionTarget readManifest FileSystem.writeFile FileSystem.stat
    FileSystem.readFile FileSystem.openForWriting
  dsimp only
  -- both sides look at the path, the node, the right to read, the version, and the right to write
  cases fs.resolve true (ws.manifestPath member) with
  | error reason => rfl
  | ok loc =>
    dsimp only
    cases hnode : fs.node? loc with
    | none => rfl
    | some n =>
      cases n with
      | directory mode =>
        dsimp only [Node.refusal?]
        by_cases hread : mode.canRead = true
        · simp only [if_pos hread, Except.map]
        · simp only [if_neg hread, Except.map]
      | link target => rfl
      | file mode content =>
        dsimp only [Node.refusal?]
        by_cases hread : mode.canRead = true
        · cases hfind : findVersion? content with
          | none =>
            simp only [if_pos hread, replaceVersion?_eq_none_iff.2 hfind, Option.isNone_none, if_true,
              Except.map]
          | some site =>
            have hset : fs.setVersion loc v = fs.setContent loc (site.fill v) := by
              simp only [FileSystem.setVersion, hnode, Option.bind_some, Node.content?,
                revisedText_of_find hfind]
            by_cases hwrite : mode.canWrite = true
            · simp only [if_pos hread, replaceVersion?_eq_fill hfind, Option.isNone_some,
                Bool.false_eq_true, if_false, if_pos hwrite, Except.map, hset]
            · simp only [if_pos hread, replaceVersion?_eq_fill hfind, Option.isNone_some,
                Bool.false_eq_true, if_false, if_neg hwrite, Except.map]
        · simp only [if_neg hread, Except.map]

end Workspace

/-! ## Many writes -/

/-- `gs` is `fs` with the version `σ loc`, where there is one, in the file at each location. -/
structure Revised (fs : FileSystem) (σ : Location → Option Text) (gs : FileSystem) : Prop where
  current : gs.current = fs.current
  node : ∀ loc, gs.node? loc = (fs.node? loc).map (Node.withVersion (σ loc))
  version : ∀ loc v, σ loc = some v → IsVersionText v

/-- Files are a revision of themselves in which nothing is revised. -/
theorem revised_self (fs : FileSystem) : Revised fs (fun _ => none) fs where
  current := rfl
  node := by
    intro loc
    rw [Node.map_withVersion_none]
  version := by
    intro loc v h
    cases h

namespace Revised

variable {fs gs : FileSystem} {σ : Location → Option Text}

theorem sameShape (h : Revised fs σ gs) : fs.SameShape gs where
  current := h.current
  node := by
    intro loc
    rw [h.node]
    cases hnode : fs.node? loc with
    | none => exact Or.inl rfl
    | some n =>
      cases n with
      | file mode content => exact Or.inr ⟨mode, content, _, rfl, rfl⟩
      | directory mode => exact Or.inl rfl
      | link target => exact Or.inl rfl

/-- A revision keeps every permission bit. -/
theorem node_mode? (h : Revised fs σ gs) (loc : Location) :
    (gs.node? loc).bind Node.mode? = (fs.node? loc).bind Node.mode? := by
  rw [h.node]
  cases fs.node? loc with
  | none => rfl
  | some n => exact n.mode?_withVersion (σ loc)

/-- **Versions that were written decide nothing about what can be written.** -/
theorem versionTarget_eq (h : Revised fs σ gs) (ws : Workspace) (member : Text) :
    ws.versionTarget gs member = ws.versionTarget fs member := by
  rw [Workspace.versionTarget, Workspace.versionTarget, h.sameShape.resolve_eq]
  cases fs.resolve true (ws.manifestPath member) with
  | error reason => rfl
  | ok loc =>
    dsimp only
    rw [h.node]
    cases fs.node? loc with
    | none => rfl
    | some n =>
      dsimp only [Option.map_some]
      rw [n.refusal?_withVersion (ws.manifestPath member) (h.version loc)]

/-- One more version takes its place at one location. -/
theorem setVersion (h : Revised fs σ gs) (loc : Location) {v : Text} (hv : IsVersionText v) :
    Revised fs (Function.update σ loc (some v)) (gs.setVersion loc v) where
  current := by rw [FileSystem.current_setVersion, h.current]
  node := by
    intro l
    rw [FileSystem.node?_setVersion, h.node]
    by_cases hl : l = loc
    · subst hl
      rw [if_pos rfl, Function.update_self]
      cases fs.node? l with
      | none => rfl
      | some n =>
        cases n with
        | directory mode => rfl
        | link target => rfl
        | file mode content =>
          simp only [Option.map_some, Node.withVersion,
            revisedText_revisedText (h.version l)]
    · rw [if_neg hl, Function.update_of_ne hl]
  version := by
    intro l u hu
    by_cases hl : l = loc
    · subst hl
      rw [Function.update_self] at hu
      obtain rfl := Option.some.inj hu
      exact hv
    · rw [Function.update_of_ne hl] at hu
      exact h.version l u hu

end Revised

end CrateBump
