/-
# The write loop

Applying a plan writes the manifests in order and stops at the first one it cannot write.  Several
members may lead to one file, by different paths or through links; their changes then agree, since
each was read off that file, and writing the file again leaves it as it is.

Main statements: the loop runs through all members that can be written and leaves the file system
revised by their versions (`applyAfter_append`), and what a plan's loop leaves behind is exactly the
planned change of every file it reached (`rewrites_of_revised`).
-/
import CrateBump.Proofs.Planning
import CrateBump.Proofs.VersionWrite

namespace CrateBump

/-! ## The loop -/

/-- The versions by location after writes, each given with its member, over those written before. -/
def revisions (ws : Workspace) (fs : FileSystem) :
    (Location → Option Text) → List (Text × Text) → Location → Option Text
  | σ, [] => σ
  | σ, (member, v) :: rest =>
    match ws.versionTarget fs member with
    | .ok loc => revisions ws fs (Function.update σ loc (some v)) rest
    | .error _ => revisions ws fs σ rest

/-- At each location the last write counts, and where there was none, what was there before. -/
theorem revisions_last (ws : Workspace) (fs : FileSystem) (σ : Location → Option Text)
    (writes : List (Text × Text)) (loc : Location) :
    (∃ e ∈ writes, ws.versionTarget fs e.1 = .ok loc ∧ revisions ws fs σ writes loc = some e.2)
      ∨ (∀ e ∈ writes, ws.versionTarget fs e.1 ≠ .ok loc)
        ∧ revisions ws fs σ writes loc = σ loc := by
  induction writes generalizing σ with
  | nil => exact Or.inr ⟨fun e he => absurd he List.not_mem_nil, rfl⟩
  | cons e rest ih =>
    obtain ⟨member, v⟩ := e
    cases htarget : ws.versionTarget fs member with
    | error reason =>
      simp only [revisions, htarget]
      rcases ih σ with ⟨e, he, hloc, hlast⟩ | ⟨hnone, hlast⟩
      · exact Or.inl ⟨e, List.mem_cons_of_mem _ he, hloc, hlast⟩
      · refine Or.inr ⟨?_, hlast⟩
        intro e he
        rcases List.mem_cons.1 he with rfl | he
        · rw [htarget]
          simp
        · exact hnone e he
    | ok loc' =>
      simp only [revisions, htarget]
      rcases ih (Function.update σ loc' (some v)) with ⟨e, he, hloc, hlast⟩ | ⟨hnone, hlast⟩
      · exact Or.inl ⟨e, List.mem_cons_of_mem _ he, hloc, hlast⟩
      · -- no later write reaches the location: it is this one's or was left alone
        by_cases heq : loc' = loc
        · subst heq
          rw [Function.update_self] at hlast
          exact Or.inl ⟨(member, v), List.mem_cons_self, htarget, hlast⟩
        · rw [Function.update_of_ne (Ne.symm heq)] at hlast
          refine Or.inr ⟨?_, hlast⟩
          intro e he
          rcases List.mem_cons.1 he with rfl | he
          · rw [htarget]
            exact fun h => heq (Except.ok.inj h)
          · exact hnone e he

section Loop

variable {ws : Workspace} {fs gs : FileSystem} {σ : Location → Option Text}

/-- The loop stops at a member that has no target. -/
theorem applyAfter_cons_of_error (h : Revised fs σ gs) {member : Text} {e : ManifestError}
    (he : ws.versionTarget fs member = .error e) (written : List Text) (v : Text)
    (rest : List (Text × Text)) :
    applyAfter ws written gs ((member, v) :: rest) = ⟨written, gs, some ⟨written, member, e⟩⟩ := by
  rw [applyAfter, Workspace.writeVersion_eq, h.versionTarget_eq, he]
  rfl

/-- The loop runs through members that have a target. -/
theorem applyAfter_append (h : Revised fs σ gs) {done : List (Text × Text)}
    (htarget : ∀ e ∈ done, ∃ loc, ws.versionTarget fs e.1 = .ok loc)
    (hversion : ∀ e ∈ done, IsVersionText e.2) (written : List Text) (rest : List (Text × Text)) :
    ∃ gs', Revised fs (revisions ws fs σ done) gs'
      ∧ applyAfter ws written gs (done ++ rest)
        = applyAfter ws (written ++ done.map Prod.fst) gs' rest := by
  -- the targets are those of the file system at the start, of which every later one is a revision
  induction done generalizing σ gs written with
  | nil => exact ⟨gs, h, by rw [List.nil_append, List.map_nil, List.append_nil]⟩
  | cons e done ih =>
    obtain ⟨member, v⟩ := e
    obtain ⟨loc, hloc⟩ := htarget (member, v) List.mem_cons_self
    have hstep : Revised fs (Function.update σ loc (some v)) (gs.setVersion loc v) :=
      h.setVersion loc (hversion (member, v) List.mem_cons_self)
    obtain ⟨gs', hgs', hrun⟩ := ih hstep (fun e he => htarget e (List.mem_cons_of_mem _ he))
      (fun e he => hversion e (List.mem_cons_of_mem _ he)) (written ++ [member])
    refine ⟨gs', ?_, ?_⟩
    · simp only [revisions, hloc]
      exact hgs'
    · rw [List.cons_append, applyAfter, Workspace.writeVersion_eq, h.versionTarget_eq, hloc]
      simp only [Except.map, hrun, List.map_cons, List.append_assoc, List.singleton_append]

end Loop

/-! ## Planned changes -/

/-- What the changes of a plan make of a file system: the file that a changed member's manifest path
leads to has its new version in the place of the old one, and all other nodes stay.  Paths are those
of the file system before. -/
structure Rewrites (ws : Workspace) (fs : FileSystem) (changes : List Change) (gs : FileSystem) :
    Prop where
  rewritten : ∀ c ∈ changes, ∃ loc mode site,
    fs.resolve true (ws.manifestPath c.member) = .ok loc
      ∧ findVersion? (site.fill c.oldVersion) = some site
      ∧ fs.node? loc = some (.file mode (site.fill c.oldVersion))
      ∧ gs.node? loc = some (.file mode (site.fill c.newVersion))
  untouched : ∀ loc, (∀ c ∈ changes, fs.resolve true (ws.manifestPath c.member) ≠ .ok loc) →
    gs.node? loc = fs.node? loc
  modes : ∀ loc, (gs.node? loc).bind Node.mode? = (fs.node? loc).bind Node.mode?
  current : gs.current = fs.current

namespace Planned

variable {ws : Workspace} {fs : FileSystem} {kind : Kind} {c : Change}

/-- The member's version can be written exactly if its manifest can be opened for writing. -/
theorem versionTarget_eq (h : Planned ws fs kind c) :
    ws.versionTarget fs c.member
      = (fs.openForWriting (ws.manifestPath c.member)).mapError
          (ManifestError.unwritable (ws.manifestPath c.member)) := by
  obtain ⟨loc, mode, content, site, hloc, hnode, hread, hfind, -⟩ :=
    Workspace.queryVersion_eq_ok_iff.1 h.old
  rw [FileSystem.openForWriting_of_file hloc hnode]
  by_cases hwrite : mode.canWrite = true
  · rw [if_pos hwrite]
    exact Workspace.versionTarget_eq_ok_iff.2 ⟨hloc, mode, content, site, hnode, hread, hwrite, hfind⟩
  · simp only [Workspace.versionTarget, hloc, hnode, Node.refusal?, if_pos hread, hfind,
      Option.isNone_some, Bool.false_eq_true, if_false, if_neg hwrite, Except.mapError]

/-- Changes that were read off one file agree. -/
theorem newVersion_eq {d : Change} (hc : Planned ws fs kind c) (hd : Planned ws fs kind d)
    (h : fs.resolve true (ws.manifestPath c.member) = fs.resolve true (ws.manifestPath d.member)) :
    c.newVersion = d.newVersion := by
  obtain ⟨loc, mode, content, site, hloc, hnode, -, hfind, hold⟩ :=
    Workspace.queryVersion_eq_ok_iff.1 hc.old
  obtain ⟨-, site', hfind', hold'⟩ :=
    Workspace.queryVersion_of_file (h.symm.trans hloc) hnode hd.old
  rw [hfind] at hfind'
  obtain rfl := Option.some.inj hfind'
  have hnew := hc.new
  rw [← hold, hold', hd.new] at hnew
  exact (Except.ok.inj hnew).symm

end Planned

/-- The members and new versions of changes, as the loop takes them. -/
def writesOf (changes : List Change) : List (Text × Text) :=
  changes.map fun c => (c.member, c.newVersion)

/-- A loop that got through planned changes has rewritten their files and nothing else. -/
theorem rewrites_of_revised {ws : Workspace} {fs gs : FileSystem} {kind : Kind}
    {done : List Change} (hplanned : ∀ c ∈ done, Planned ws fs kind c)
    (htarget : ∀ c ∈ done, ∃ loc, ws.versionTarget fs c.member = .ok loc)
    (h : Revised fs (revisions ws fs (fun _ => none) (writesOf done)) gs) :
    Rewrites ws fs done gs where
  rewritten := by
    intro c hc
    obtain ⟨loc, hloc⟩ := htarget c hc
    obtain ⟨hresolve, mode, content, site, hnode, -, -, hfind⟩ :=
      Workspace.versionTarget_eq_ok_iff.1 hloc
    -- the last write to the file may be another member's, but it puts in the same version
    have hlast : revisions ws fs (fun _ => none) (writesOf done) loc = some c.newVersion := by
      rcases revisions_last ws fs (fun _ => none) (writesOf done) loc with
        ⟨e, he, heloc, hlast⟩ | ⟨hnone, -⟩
      · obtain ⟨d, hd, rfl⟩ := List.mem_map.1 he
        have hdloc := (Workspace.versionTarget_eq_ok_iff.1 heloc).1
        rw [hlast, (hplanned c hc).newVersion_eq (hplanned d hd) (hresolve.trans hdloc.symm)]
      · exact absurd hloc (hnone _ (List.mem_map.2 ⟨c, hc, rfl⟩))
    obtain ⟨-, site', hfind', hold⟩ :=
      Workspace.queryVersion_of_file hresolve hnode (hplanned c hc).old
    rw [hfind] at hfind'
    obtain rfl := Option.some.inj hfind'
    have hcontent : site.fill c.oldVersion = content := by rw [← hold, fill_version hfind]
    refine ⟨loc, mode, site, hresolve, ?_, ?_, ?_⟩
    · rw [hcontent, hfind]
    · rw [hcontent, hnode]
    · rw [h.node, hnode, hlast, Option.map_some, Node.withVersion, revisedText_of_find hfind]
  untouched := by
    intro loc hloc
    have hlast : revisions ws fs (fun _ => none) (writesOf done) loc = none := by
      rcases revisions_last ws fs (fun _ => none) (writesOf done) loc with
        ⟨e, he, heloc, -⟩ | ⟨-, hlast⟩
      · obtain ⟨d, hd, rfl⟩ := List.mem_map.1 he
        exact absurd (Workspace.versionTarget_eq_ok_iff.1 heloc).1 (hloc d hd)
      · exact hlast
    rw [h.node, hlast, Node.map_withVersion_none]
  modes := h.node_mode?
  current := h.current

namespace Rewrites

variable {ws : Workspace} {fs gs : FileSystem} {changes : List Change}

theorem sameShape (h : Rewrites ws fs changes gs) : fs.SameShape gs where
  current := h.current
  node := by
    intro loc
    by_cases hreached : ∃ c ∈ changes, fs.resolve true (ws.manifestPath c.member) = .ok loc
    · obtain ⟨c, hc, hloc⟩ := hreached
      obtain ⟨loc', mode, site, hloc', -, hbefore, hafter⟩ := h.rewritten c hc
      rw [hloc] at hloc'
      obtain rfl := Except.ok.inj hloc'
      exact Or.inr ⟨mode, _, _, hbefore, hafter⟩
    · refine Or.inl (h.untouched loc ?_)
      intro c hc hloc
      exact hreached ⟨c, hc, hloc⟩

/-- A changed member that declared its old version declares the new one. -/
theorem queryVersion_of_old (h : Rewrites ws fs changes gs) {c : Change} (hc : c ∈ changes)
    (hold : ws.queryVersion fs c.member = .ok c.oldVersion) (hnew : IsVersionText c.newVersion) :
    ws.queryVersion gs c.member = .ok c.newVersion := by
  obtain ⟨loc, mode, site, hloc, hfind, hbefore, hafter⟩ := h.rewritten c hc
  have hread := (Workspace.queryVersion_of_file hloc hbefore hold).1
  have hgs : gs.resolve true (ws.manifestPath c.member) = .ok loc := by
    rw [h.sameShape.resolve_eq, hloc]
  rw [Workspace.queryVersion_eq_ok_iff]
  exact ⟨loc, mode, _, _, hgs, hafter, hread, findVersion?_fill hfind hnew, rfl⟩

/-- Every changed member of a plan declares its new version. -/
theorem queryVersion (h : Rewrites ws fs changes gs) {kind : Kind} {c : Change} (hc : c ∈ changes)
    (hplanned : Planned ws fs kind c) : ws.queryVersion gs c.member = .ok c.newVersion :=
  h.queryVersion_of_old hc hplanned.old (isVersionText_bumpVersion hplanned.new)

end Rewrites

/-! ## Applying a plan -/

/-- The manifest of a change can be opened for writing. -/
def Writable (ws : Workspace) (fs : FileSystem) (c : Change) : Prop :=
  ∃ loc, fs.openForWriting (ws.manifestPath c.member) = .ok loc

theorem Planned.exists_versionTarget_iff {ws : Workspace} {fs : FileSystem} {kind : Kind}
    {c : Change} (h : Planned ws fs kind c) :
    (∃ loc, ws.versionTarget fs c.member = .ok loc) ↔ Writable ws fs c := by
  rw [h.versionTarget_eq, Writable]
  cases fs.openForWriting (ws.manifestPath c.member) with
  | error e => simp [Except.mapError]
  | ok loc => simp [Except.mapError]

section Apply

variable {ws : Workspace} {fs : FileSystem} {kind : Kind} {done : List Change}

/-- The loop gets through planned changes whose manifests can be written, and rewrites them. -/
theorem applyChanges_append (hplanned : ∀ c ∈ done, Planned ws fs kind c)
    (hwritable : ∀ c ∈ done, Writable ws fs c) (rest : List Change) :
    ∃ σ gs, Revised fs σ gs ∧ Rewrites ws fs done gs
      ∧ applyChanges ws fs (done ++ rest)
        = applyAfter ws (done.map Change.member) gs (writesOf rest) := by
  have htarget : ∀ c ∈ done, ∃ loc, ws.versionTarget fs c.member = .ok loc := fun c hc =>
    (hplanned c hc).exists_versionTarget_iff.2 (hwritable c hc)
  have htarget' : ∀ e ∈ writesOf done, ∃ loc, ws.versionTarget fs e.1 = .ok loc := by
    intro e he
    obtain ⟨c, hc, rfl⟩ := List.mem_map.1 he
    exact htarget c hc
  have hversion : ∀ e ∈ writesOf done, IsVersionText e.2 := by
    intro e he
    obtain ⟨c, hc, rfl⟩ := List.mem_map.1 he
    exact isVersionText_bumpVersion (hplanned c hc).new
  obtain ⟨gs, hgs, hrun⟩ :=
    applyAfter_append (revised_self fs) htarget' hversion [] (writesOf rest)
  refine ⟨_, gs, hgs, rewrites_of_revised hplanned htarget hgs, ?_⟩
  have hmembers : (writesOf done).map Prod.fst = done.map Change.member := by
    rw [writesOf, List.map_map]
    rfl
  rw [List.nil_append, hmembers] at hrun
  rw [← hrun, applyChanges, applyVersions, List.map_append]
  rfl

/-- The loop that gets through all of its changes. -/
theorem applyChanges_of_writable (hplanned : ∀ c ∈ done, Planned ws fs kind c)
    (hwritable : ∀ c ∈ done, Writable ws fs c) :
    ∃ gs, Rewrites ws fs done gs
      ∧ applyChanges ws fs done = ⟨done.map Change.member, gs, none⟩ := by
  obtain ⟨σ, gs, -, hrewrites, hrun⟩ := applyChanges_append hplanned hwritable []
  rw [List.append_nil] at hrun
  exact ⟨gs, hrewrites, hrun⟩

/-- The loop that stops at a change whose manifest cannot be opened for writing. -/
theorem applyChanges_of_unwritable (hplanned : ∀ c ∈ done, Planned ws fs kind c)
    (hwritable : ∀ c ∈ done, Writable ws fs c) {c : Change} (hc : Planned ws fs kind c)
    {e : FileError} (he : fs.openForWriting (ws.manifestPath c.member) = .error e)
    (rest : List Change) :
    ∃ gs, Rewrites ws fs done gs
      ∧ applyChanges ws fs (done ++ c :: rest)
        = ⟨done.map Change.member, gs, some ⟨done.map Change.member, c.member,
            .unwritable (ws.manifestPath c.member) e⟩⟩ := by
  obtain ⟨σ, gs, hgs, hrewrites, hrun⟩ := applyChanges_append hplanned hwritable (c :: rest)
  have htarget : ws.versionTarget fs c.member
      = .error (.unwritable (ws.manifestPath c.member) e) := by
    rw [hc.versionTarget_eq, he]
    rfl
  refine ⟨gs, hrewrites, ?_⟩
  rw [hrun]
  exact applyAfter_cons_of_error hgs htarget _ _ _

end Apply

/-- Changes are all writable, or there is a first one that is not. -/
theorem forall_writable_or_first (ws : Workspace) (fs : FileSystem) (changes : List Change) :
    (∀ c ∈ changes, Writable ws fs c)
      ∨ ∃ done c rest e, changes = done ++ c :: rest ∧ (∀ d ∈ done, Writable ws fs d)
        ∧ fs.openForWriting (ws.manifestPath c.member) = .error e := by
  induction changes with
  | nil => exact Or.inl (fun c hc => absurd hc List.not_mem_nil)
  | cons c changes ih =>
    cases hopen : fs.openForWriting (ws.manifestPath c.member) with
    | error e =>
      exact Or.inr ⟨[], c, changes, e, rfl, fun d hd => absurd hd List.not_mem_nil, hopen⟩
    | ok loc =>
      have hc : Writable ws fs c := ⟨loc, hopen⟩
      rcases ih with hall | ⟨done, d, rest, e, rfl, hdone, hd⟩
      · exact Or.inl (List.forall_mem_cons.2 ⟨hc, hall⟩)
      · exact Or.inr ⟨c :: done, d, rest, e, rfl, List.forall_mem_cons.2 ⟨hc, hdone⟩, hd⟩

/-- A loop over planned changes gets through all of them, or stops at the first whose manifest cannot
be opened for writing. -/
theorem applyChanges_cases {ws : Workspace} {fs : FileSystem} {kind : Kind} {changes : List Change}
    (hplanned : ∀ c ∈ changes, Planned ws fs kind c) :
    ((∀ c ∈ changes, Writable ws fs c)
        ∧ ∃ gs, Rewrites ws fs changes gs
          ∧ applyChanges ws fs changes = ⟨changes.map Change.member, gs, none⟩)
      ∨ ∃ done c rest e gs, changes = done ++ c :: rest ∧ (∀ d ∈ done, Writable ws fs d)
        ∧ fs.openForWriting (ws.manifestPath c.member) = .error e
        ∧ Rewrites ws fs done gs
        ∧ applyChanges ws fs changes
          = ⟨done.map Change.member, gs, some ⟨done.map Change.member, c.member,
              .unwritable (ws.manifestPath c.member) e⟩⟩ := by
  rcases forall_writable_or_first ws fs changes with hall | ⟨done, c, rest, e, rfl, hdone, he⟩
  · exact Or.inl ⟨hall, applyChanges_of_writable hplanned hall⟩
  · have hc : c ∈ done ++ c :: rest := List.mem_append_right _ List.mem_cons_self
    obtain ⟨gs, hrewrites, hrun⟩ := applyChanges_of_unwritable
      (fun d hd => hplanned d (List.mem_append_left _ hd)) hdone (hplanned c hc) he rest
    exact Or.inr ⟨done, c, rest, e, gs, rfl, hdone, he, hrewrites, hrun⟩

/-- A file that cannot be opened for writing is not among those rewritten. -/
theorem Rewrites.node?_of_unwritable {ws : Workspace} {fs gs : FileSystem} {done : List Change}
    (h : Rewrites ws fs done gs) (hwritable : ∀ d ∈ done, Writable ws fs d) {path : Text}
    {e : FileError} (he : fs.openForWriting path = .error e) {loc : Location}
    (hloc : fs.resolve true path = .ok loc) : gs.node? loc = fs.node? loc := by
  apply h.untouched
  intro d hd hreached
  obtain ⟨loc', mode, site, hloc', -, hnode, -⟩ := h.rewritten d hd
  rw [hreached] at hloc'
  obtain rfl := Except.ok.inj hloc'
  obtain ⟨opened, hopened⟩ := hwritable d hd
  rw [FileSystem.openForWriting_of_file hreached hnode] at hopened
  rw [FileSystem.openForWriting_of_file hloc hnode] at he
  split at he
  · cases he
  · next hdenied =>
    rw [if_neg hdenied] at hopened
    cases hopened

/-- **After a plan only an unwritable manifest stops the write loop, and the report of a stopped loop
is exact.**  All is written exactly if every planned manifest can be opened for writing.  Otherwise
the loop stops at the first that cannot: the error is that of opening it, with no other cause; the
members before it are reported as written and have their planned versions; all other files, the
failed one among them, are as they were. -/
theorem applyChanges_of_plan {ws : Workspace} {fs : FileSystem} {kind : Kind}
    {changes : List Change} (hplan : plan ws fs kind = .ok changes) :
    let applied := applyChanges ws fs changes
    (applied.error? = none ↔ ∀ c ∈ changes, Writable ws fs c)
    ∧ (applied.error? = none →
        applied.written = changes.map Change.member ∧ Rewrites ws fs changes applied.files
        ∧ ∀ c ∈ changes, ws.queryVersion applied.files c.member = .ok c.newVersion)
    ∧ ∀ stopped, applied.error? = some stopped →
        ∃ done c rest e, changes = done ++ c :: rest
          ∧ (∀ d ∈ done, Writable ws fs d)
          ∧ fs.openForWriting (ws.manifestPath c.member) = .error e
          ∧ stopped = ⟨done.map Change.member, c.member,
              .unwritable (ws.manifestPath c.member) e⟩
          ∧ stopped.error.cause? = none
          ∧ applied.written = done.map Change.member
          ∧ Rewrites ws fs done applied.files
          ∧ (∀ d ∈ done, ws.queryVersion applied.files d.member = .ok d.newVersion)
          ∧ ∀ loc, fs.resolve true (ws.manifestPath c.member) = .ok loc →
              applied.files.node? loc = fs.node? loc := by
  intro applied
  obtain ⟨content, members, -, -, -, hplanned⟩ := plan_eq_ok hplan
  rcases applyChanges_cases hplanned with
    ⟨hall, gs, hrewrites, hrun⟩ | ⟨done, c, rest, e, gs, rfl, hdone, he, hrewrites, hrun⟩
  · rw [show applied = _ from hrun]
    refine ⟨⟨fun _ => hall, fun _ => rfl⟩, fun _ => ⟨rfl, hrewrites, ?_⟩, fun stopped h => ?_⟩
    · intro c hc
      exact hrewrites.queryVersion hc (hplanned c hc)
    · cases h
  · rw [show applied = _ from hrun]
    refine ⟨⟨fun h => ?_, fun hall => ?_⟩, fun h => ?_, fun stopped h => ?_⟩
    · cases h
    · obtain ⟨loc, hloc⟩ := hall c (List.mem_append_right _ List.mem_cons_self)
      rw [he] at hloc
      cases hloc
    · cases h
    · obtain rfl := Option.some.inj h
      refine ⟨done, c, rest, e, rfl, hdone, he, rfl, rfl, rfl, hrewrites, ?_, ?_⟩
      · intro d hd
        exact hrewrites.queryVersion hd (hplanned d (List.mem_append_left _ hd))
      · intro loc hloc
        exact hrewrites.node?_of_unwritable hdone he hloc

/-- A root manifest that lists itself as `./`, a member `a` and the link `b` to that member.  The
member's manifest has the permission bits `mode`. -/
def sampleFiles (mode : Mode) : FileSystem where
  nodes :=
    [([], .directory Mode.newDirectory),
      ([ascii "Cargo.toml"], .file Mode.newFile
        (ascii "[package]\nversion = \"1.2.3\"\n[workspace]\nmembers = [\"./\", \"a\", \"b\"]\n")),
      ([ascii "a"], .directory Mode.newDirectory),
      ([ascii "a", ascii "Cargo.toml"], .file mode (ascii "[package]\nversion = \"0.9.9\"\n")),
      ([ascii "b"], .link (ascii "a"))]
  current := []

/-- The workspace at the top of the sample files. -/
def sampleWorkspace : Workspace := ⟨[], []⟩

/-- The plan of a minor bump of the sample files. -/
def sampleChanges : List Change :=
  [⟨ascii ".", ascii "Cargo.toml", [], ascii "1.2.3", ascii "1.3.0", 0⟩,
    ⟨ascii "./", ascii "Cargo.toml", [], ascii "1.2.3", ascii "1.3.0", 0⟩,
    ⟨ascii "a", ascii "a/Cargo.toml", [], ascii "0.9.9", ascii "0.10.0", -1⟩,
    ⟨ascii "b", ascii "b/Cargo.toml", [], ascii "0.9.9", ascii "0.10.0", -1⟩]

/-- A member that may only be read stops the loop behind both writes of the root manifest. -/
theorem applyChanges_of_plan_locked :
    plan sampleWorkspace (sampleFiles 256) .minor = .ok sampleChanges
    ∧ ∃ stopped,
        (applyChanges sampleWorkspace (sampleFiles 256) sampleChanges).error? = some stopped
        ∧ stopped.failed = ascii "a" ∧ stopped.written = [ascii ".", ascii "./"]
        ∧ stopped.error.cause? = none := by
  have hplan : plan sampleWorkspace (sampleFiles 256) .minor = .ok sampleChanges := by
    decide +kernel
  have hreport : (applyChanges sampleWorkspace (sampleFiles 256) sampleChanges).error?.map
      (fun stopped => (stopped.failed, stopped.written))
        = some (ascii "a", [ascii ".", ascii "./"]) := by
    decide +kernel
  obtain ⟨stopped, hstopped, heq⟩ := Option.map_eq_some_iff.1 hreport
  obtain ⟨hfailed, hwritten⟩ := Prod.mk.inj heq
  obtain ⟨done, c, rest, e, -, -, -, -, hcause, -⟩ :=
    (applyChanges_of_plan hplan).2.2 stopped hstopped
  exact ⟨hplan, stopped, hstopped, hfailed, hwritten, hcause⟩

end CrateBump
