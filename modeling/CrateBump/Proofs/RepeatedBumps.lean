/-
# Bumps one after another

What a bump leaves behind can be bumped again.  The root manifest lists the same members, every member
declares a version that can be bumped, and all manifests can still be written; so a run of bumps of
any length goes through, and only the versions move.

Main statements: one bump of files that are ready for it leaves files that are ready again
(`ReadyToBump.step`), and a run of bumps puts into every manifest the version that the bumps lead to
(`rewrites_worldAfter`).
-/
import CrateBump.Proofs.BumpRun
import CrateBump.Proofs.MembersKept
import CrateBump.Report
import Mathlib.Data.List.Induction

namespace CrateBump

/-! ## Versions after several bumps -/

/-- The version after bumps of several kinds; a kind that names no component leaves it alone. -/
def versionAfter (version : Text) (kinds : List Kind) : Text :=
  kinds.foldl (fun v kind =>
    match bumpVersion v kind with
    | .ok new => new
    | .error _ => v) version

theorem versionAfter_concat_of_ok {version new : Text} {kinds : List Kind} {kind : Kind}
    (h : bumpVersion (versionAfter version kinds) kind = .ok new) :
    versionAfter version (kinds ++ [kind]) = new := by
  unfold versionAfter at h ⊢
  rw [List.foldl_append, List.foldl_cons, List.foldl_nil, h]

theorem versionAfter_concat_of_error {version : Text} {kinds : List Kind} {kind : Kind}
    {e : VersionError} (h : bumpVersion (versionAfter version kinds) kind = .error e) :
    versionAfter version (kinds ++ [kind]) = versionAfter version kinds := by
  unfold versionAfter at h ⊢
  rw [List.foldl_append, List.foldl_cons, List.foldl_nil, h]

theorem bumpable_versionAfter {version : Text} (h : Bumpable version) (kinds : List Kind) :
    Bumpable (versionAfter version kinds) := by
  induction kinds using List.reverseRecOn with
  | nil => exact h
  | append_singleton kinds kind ih =>
    cases hbump : bumpVersion (versionAfter version kinds) kind with
    | ok new =>
      rw [versionAfter_concat_of_ok hbump]
      exact bumpable_of_bumpVersion hbump
    | error e =>
      rw [versionAfter_concat_of_error hbump]
      exact ih

/-- With kinds that all name a component, no bump of the fold fails. -/
theorem foldlM_bumpVersion {version : Text} (h : Bumpable version) {kinds : List Kind}
    (hkinds : ∀ kind ∈ kinds, kind.isKnown = true) :
    kinds.foldlM bumpVersion version = .ok (versionAfter version kinds) := by
  induction kinds generalizing version with
  | nil => rfl
  | cons kind kinds ih =>
    obtain ⟨new, hnew⟩ := bumpVersion_of_bumpable h (hkinds kind List.mem_cons_self)
    have hrest := ih (bumpable_of_bumpVersion hnew) fun k hk => hkinds k (List.mem_cons_of_mem _ hk)
    have hafter : versionAfter version (kind :: kinds) = versionAfter new kinds := by
      rw [versionAfter, List.foldl_cons, hnew]
      rfl
    rw [List.foldlM_cons, hnew, hafter]
    exact hrest

/-! ## Files to bump -/

/-- A bump of the workspace goes through: the root manifest lists `members` outside of its version,
and the root and every member have a version that can be bumped in a file that can be written. -/
structure ReadyToBump (ws : Workspace) (fs : FileSystem) (members : List Text) : Prop where
  root : ∃ content, ws.readManifest fs Workspace.rootMember = .ok content
    ∧ findMembers? content = some members ∧ VersionOutside content
  version : ∀ m ∈ Workspace.rootMember :: members, ∃ v, ws.queryVersion fs m = .ok v ∧ Bumpable v
  writable : ∀ m ∈ Workspace.rootMember :: members,
    ∃ loc, fs.openForWriting (ws.manifestPath m) = .ok loc

theorem planMembers_of_bumpable {ws : Workspace} {fs : FileSystem} {kind : Kind}
    (hkind : kind.isKnown = true) {members : List Text}
    (h : ∀ m ∈ members, ∃ v, ws.queryVersion fs m = .ok v ∧ Bumpable v) (root : Text) :
    ∃ changes, planMembers ws fs kind root members = .ok changes := by
  induction members generalizing root with
  | nil => exact ⟨[], rfl⟩
  | cons m members ih =>
    obtain ⟨v, hv, hbumpable⟩ := h m List.mem_cons_self
    obtain ⟨new, hnew⟩ := bumpVersion_of_bumpable hbumpable hkind
    obtain ⟨changes, hchanges⟩ := ih (fun m' hm' => h m' (List.mem_cons_of_mem _ hm'))
      (if m == Workspace.rootMember then v else root)
    simp only [planMembers, hv, hnew, hchanges]
    exact ⟨_, rfl⟩

/-- Files of the same shape can be opened for writing alike. -/
theorem FileSystem.SameShape.openForWriting_eq {fs gs : FileSystem} (h : fs.SameShape gs)
    (path : Text) : gs.openForWriting path = fs.openForWriting path := by
  unfold FileSystem.openForWriting
  rw [h.resolve_eq]
  cases fs.resolve true path with
  | error reason => rfl
  | ok loc =>
    dsimp only
    rcases h.node loc with heq | ⟨mode, c, c', hfs, hgs⟩
    · rw [heq]
    · rw [hfs, hgs]

namespace ReadyToBump

variable {ws : Workspace} {fs : FileSystem} {members : List Text}

/-- There is a plan for every kind that names a component. -/
theorem exists_plan (h : ReadyToBump ws fs members) {kind : Kind} (hkind : kind.isKnown = true) :
    ∃ changes, plan ws fs kind = .ok changes
      ∧ changes.map Change.member = Workspace.rootMember :: members
      ∧ ∀ c ∈ changes, Planned ws fs kind c := by
  obtain ⟨content, hread, hmembers, -⟩ := h.root
  have hall : ws.allMembers fs = .ok (Workspace.rootMember :: members) := by
    simp only [Workspace.allMembers, Workspace.queryMembers, hread, hmembers]
  obtain ⟨changes, hchanges⟩ := planMembers_of_bumpable hkind h.version []
  exact ⟨changes, by simp only [plan, hall, hchanges], planMembers_eq_ok hchanges⟩

/-- Rewriting bumpable versions by bumpable versions keeps the files ready. -/
theorem of_rewrites (h : ReadyToBump ws fs members) {changes : List Change} {gs : FileSystem}
    (hlist : changes.map Change.member = Workspace.rootMember :: members)
    (hold : ∀ c ∈ changes, ws.queryVersion fs c.member = .ok c.oldVersion)
    (hnew : ∀ c ∈ changes, Bumpable c.newVersion) (hrewrites : Rewrites ws fs changes gs) :
    ReadyToBump ws gs members where
  root := by
    obtain ⟨content, hread, hmembers, hout⟩ := h.root
    have hmem : Workspace.rootMember ∈ changes.map Change.member := hlist ▸ List.mem_cons_self
    obtain ⟨c, hc, hroot⟩ := List.mem_map.1 hmem
    obtain ⟨loc, mode, site, hloc, hfind, hbefore, hafter⟩ := hrewrites.rewritten c hc
    obtain ⟨hcanRead, site', hfind', hversion⟩ :=
      Workspace.queryVersion_of_file hloc hbefore (hold c hc)
    -- the manifest that lists the members is the one that the root's change rewrites
    rw [hroot] at hloc
    have hread' := Workspace.readManifest_eq_ok_iff.2 ⟨loc, mode, hloc, hbefore, hcanRead⟩
    rw [hread] at hread'
    obtain rfl := Except.ok.inj hread'
    rw [hfind] at hfind'
    obtain rfl := Option.some.inj hfind'
    have hbumpable : Bumpable site.version := by
      obtain ⟨v, hv, hbumpable⟩ := h.version _ List.mem_cons_self
      rw [← hroot, hold c hc] at hv
      rw [hversion, Except.ok.inj hv]
      exact hbumpable
    obtain ⟨hkept, hout'⟩ :=
      findMembers?_fill hfind hbumpable.isDotted hout hmembers (hnew c hc).isDotted
    refine ⟨site.fill c.newVersion, ?_, hkept, hout'⟩
    refine Workspace.readManifest_eq_ok_iff.2 ⟨loc, mode, ?_, hafter, hcanRead⟩
    rw [hrewrites.sameShape.resolve_eq, hloc]
  version := by
    intro m hm
    rw [← hlist] at hm
    obtain ⟨c, hc, rfl⟩ := List.mem_map.1 hm
    exact ⟨c.newVersion,
      hrewrites.queryVersion_of_old hc (hold c hc) (hnew c hc).isDotted.isVersionText, hnew c hc⟩
  writable := by
    intro m hm
    rw [hrewrites.sameShape.openForWriting_eq]
    exact h.writable m hm

/-- **One bump of files that are ready for it goes through and leaves files that are ready again.** -/
theorem step (h : ReadyToBump ws fs members) {kind : Kind} (hkind : kind.isKnown = true) :
    ∃ changes gs, plan ws fs kind = .ok changes
      ∧ changes.map Change.member = Workspace.rootMember :: members
      ∧ (∀ c ∈ changes, Planned ws fs kind c)
      ∧ applyChanges ws fs changes = ⟨Workspace.rootMember :: members, gs, none⟩
      ∧ Rewrites ws fs changes gs ∧ ReadyToBump ws gs members := by
  obtain ⟨changes, hplan, hlist, hplanned⟩ := h.exists_plan hkind
  have hwritable : ∀ c ∈ changes, Writable ws fs c := fun c hc =>
    h.writable c.member (hlist ▸ List.mem_map_of_mem hc)
  obtain ⟨gs, hrewrites, hrun⟩ := applyChanges_of_writable hplanned hwritable
  refine ⟨changes, gs, hplan, hlist, hplanned, hlist ▸ hrun, hrewrites, ?_⟩
  exact h.of_rewrites hlist (fun c hc => (hplanned c hc).old)
    (fun c hc => bumpable_of_bumpVersion (hplanned c hc).new) hrewrites

end ReadyToBump

/-! ## Rewriting twice -/

namespace Rewrites

variable {ws : Workspace} {fs gs hs : FileSystem}

/-- Changes that write back what is there. -/
theorem self {changes : List Change}
    (h : ∀ c ∈ changes, ws.queryVersion fs c.member = .ok c.oldVersion
      ∧ c.newVersion = c.oldVersion) : Rewrites ws fs changes fs where
  rewritten := by
    intro c hc
    obtain ⟨hold, hnew⟩ := h c hc
    obtain ⟨loc, mode, content, site, hloc, hnode, -, hfind, hversion⟩ :=
      Workspace.queryVersion_eq_ok_iff.1 hold
    have hcontent : site.fill c.oldVersion = content := by rw [← hversion, fill_version hfind]
    rw [hnew]
    refine ⟨loc, mode, site, hloc, ?_, ?_, ?_⟩
    · rw [hcontent, hfind]
    · rw [hcontent, hnode]
    · rw [hcontent, hnode]
  untouched := fun _ _ => rfl
  modes := fun _ => rfl
  current := rfl

/-- Two rewritings of the same members, one after the other, are one rewriting: it leads from the old
versions of the first to the new versions of the second. -/
theorem trans {first second both : List Change} (hfirst : Rewrites ws fs first gs)
    (hsecond : Rewrites ws gs second hs)
    (hboth : ∀ e ∈ both, ∃ c ∈ first, ∃ d ∈ second, c.member = e.member ∧ d.member = e.member
      ∧ c.oldVersion = e.oldVersion ∧ IsVersionText c.newVersion ∧ d.newVersion = e.newVersion)
    (hmembers : both.map Change.member = first.map Change.member)
    (hmembers' : both.map Change.member = second.map Change.member) :
    Rewrites ws fs both hs where
  rewritten := by
    intro e he
    obtain ⟨c, hc, d, hd, hcm, hdm, hold, htext, hnew⟩ := hboth e he
    obtain ⟨loc, mode, site, hloc, hfind, hbefore, hbetween⟩ := hfirst.rewritten c hc
    obtain ⟨loc', mode', site', hloc', hfind', hbetween', hafter⟩ := hsecond.rewritten d hd
    rw [hcm] at hloc
    rw [hdm, hfirst.sameShape.resolve_eq, hloc] at hloc'
    obtain rfl := Except.ok.inj hloc'
    rw [hbetween] at hbetween'
    obtain ⟨rfl, hcontent⟩ := Node.file.inj (Option.some.inj hbetween')
    -- the second rewriting finds the version where the first one put it
    rw [← hcontent, findVersion?_fill hfind htext] at hfind'
    obtain rfl := Option.some.inj hfind'
    rw [hold] at hfind hbefore
    exact ⟨loc, mode, site, hloc, hfind, hbefore, hnew ▸ hafter⟩
  untouched := by
    intro loc hloc
    have hkept : ∀ {changes : List Change}, both.map Change.member = changes.map Change.member →
        ∀ c ∈ changes, fs.resolve true (ws.manifestPath c.member) ≠ .ok loc := by
      intro changes hlist c hc
      obtain ⟨e, he, hmember⟩ := List.mem_map.1 (hlist ▸ List.mem_map_of_mem hc)
      rw [← hmember]
      exact hloc e he
    rw [hsecond.untouched loc, hfirst.untouched loc (hkept hmembers)]
    intro d hd
    rw [hfirst.sameShape.resolve_eq]
    exact hkept hmembers' d hd
  modes := fun loc => (hsecond.modes loc).trans (hfirst.modes loc)
  current := hsecond.current.trans hfirst.current

end Rewrites

/-! ## Runs of bumps -/

/-- The changes of a first plan, carried on to the versions that several bumps lead to. -/
def carried (changes : List Change) (kinds : List Kind) : List Change :=
  changes.map fun c => { c with newVersion := versionAfter c.oldVersion kinds }

@[simp] theorem map_member_carried (changes : List Change) (kinds : List Kind) :
    (carried changes kinds).map Change.member = changes.map Change.member := by
  rw [carried, List.map_map]
  rfl

/-- A plan that was made of files carried on by several bumps goes on from the versions they led to. -/
theorem versions_of_planned {ws : Workspace} {fs gs : FileSystem} {changes : List Change}
    {kinds : List Kind} (h : Rewrites ws fs (carried changes kinds) gs) {c : Change}
    (hc : c ∈ changes) (hold : ws.queryVersion fs c.member = .ok c.oldVersion)
    (hbumpable : Bumpable c.oldVersion) {kind : Kind} {d : Change} (hd : Planned ws gs kind d)
    (hmember : d.member = c.member) :
    d.oldVersion = versionAfter c.oldVersion kinds
      ∧ d.newVersion = versionAfter c.oldVersion (kinds ++ [kind]) := by
  have hversion : ws.queryVersion gs c.member = .ok (versionAfter c.oldVersion kinds) :=
    h.queryVersion_of_old (List.mem_map_of_mem hc) hold
      (bumpable_versionAfter hbumpable kinds).isDotted.isVersionText
  have hplanned := hd.old
  rw [hmember, hversion] at hplanned
  have hdOld : d.oldVersion = versionAfter c.oldVersion kinds := (Except.ok.inj hplanned).symm
  exact ⟨hdOld, (versionAfter_concat_of_ok (hdOld ▸ hd.new)).symm⟩

/-- Lists of changes to the same members have the same image, if changes to one member do. -/
theorem map_eq_map_of_members {β : Type} {f g : Change → β} {xs ys : List Change}
    (h : xs.map Change.member = ys.map Change.member)
    (hfg : ∀ x ∈ xs, ∀ y ∈ ys, x.member = y.member → f x = g y) : xs.map f = ys.map g := by
  induction xs generalizing ys with
  | nil =>
    cases ys with
    | nil => rfl
    | cons y ys => cases h
  | cons x xs ih =>
    cases ys with
    | nil => cases h
    | cons y ys =>
      obtain ⟨hhead, htail⟩ := List.cons.inj h
      rw [List.map_cons, List.map_cons, hfg x List.mem_cons_self y List.mem_cons_self hhead,
        ih htail fun x' hx' y' hy' => hfg x' (List.mem_cons_of_mem _ hx') y' (List.mem_cons_of_mem _ hy')]

/-- A prompter that says yes to everything. -/
def Prompter.AlwaysAccepts (p : Prompter) : Prop := ∀ q w, (p q w).decision = .ok true

section Runs

variable (host : Host) (ws : Workspace) (prompter : Prompter) (options : BumpOptions)

/-- The world after bumps of several kinds, one after the other. -/
def worldAfter (w : World) (kinds : List Kind) : World :=
  kinds.foldl (fun w kind => (bump host ws prompter options kind w).world) w

theorem worldAfter_concat (w : World) (kinds : List Kind) (kind : Kind) :
    worldAfter host ws prompter options w (kinds ++ [kind])
      = (bump host ws prompter options kind (worldAfter host ws prompter options w kinds)).world := by
  rw [worldAfter, List.foldl_append]
  rfl

variable {host ws prompter options}

/-- A bump without a plan leaves the world as it is. -/
theorem bump_world_of_unplanned {kind : Kind} {w : World} {e : PlanError}
    (h : plan ws w.files kind = .error e) : (bump host ws prompter options kind w).world = w := by
  unfold bump
  rw [h]

/-- There is no plan for a kind that names no component. -/
theorem exists_plan_error_of_unknown (ws : Workspace) (fs : FileSystem) {kind : Kind}
    (h : kind.isKnown = false) :
    ∃ e, plan ws fs kind = .error e := by
  cases hplan : plan ws fs kind with
  | error e => exact ⟨e, rfl⟩
  | ok changes =>
    obtain ⟨content, members, -, -, hlist, hplanned⟩ := plan_eq_ok hplan
    have hmem : Workspace.rootMember ∈ changes.map Change.member := hlist ▸ List.mem_cons_self
    obtain ⟨c, hc, -⟩ := List.mem_map.1 hmem
    rw [(bumpVersion_eq_ok (hplanned c hc).new).2.1] at h
    cases h

section Accepting

variable (host) (haccepts : prompter.AlwaysAccepts) (hkeeps : prompter.KeepsFiles)
  (hdry : options.dryRun = false) (hcommit : options.commit = false)
include haccepts hkeeps hdry hcommit

/-- An accepted bump of files that are ready for it, without a release. -/
theorem bump_of_ready {w : World} {members : List Text} (h : ReadyToBump ws w.files members)
    {kind : Kind} (hkind : kind.isKnown = true) :
    let o := bump host ws prompter options kind w
    o.confirmed = true ∧ o.error? = none ∧ o.written = Workspace.rootMember :: members
      ∧ o.changes.map Change.member = Workspace.rootMember :: members
      ∧ (∀ c ∈ o.changes, Planned ws w.files kind c)
      ∧ Rewrites ws w.files o.changes o.world.files ∧ ReadyToBump ws o.world.files members := by
  intro o
  obtain ⟨changes, gs, hplan, hlist, hplanned, hrun, hrewrites, hready⟩ := h.step hkind
  have hbump : o = writeStage host ws options (replied host prompter changes w) :=
    bump_of_accepted hplan hdry (releaseCheck_eq_ok_iff.2 fun hyes => by simp [hcommit] at hyes)
      (haccepts _ w)
  have hfiles : (replied host prompter changes w).world.files = w.files := hkeeps _ w
  have happlied : applyChanges ws (replied host prompter changes w).world.files
      (replied host prompter changes w).changes = ⟨Workspace.rootMember :: members, gs, none⟩ := by
    rw [hfiles]
    exact hrun
  obtain ⟨hconfirmed, -, hchanges, hwritten, hworld, -⟩ :=
    writeStage_fields host ws options (replied host prompter changes w)
  have herror : (writeStage host ws options (replied host prompter changes w)).error?
      = (replied host prompter changes w).error? :=
    writeStage_error?_of_applied hcommit (by rw [happlied])
  rw [happlied] at hwritten hworld
  rw [hbump, hconfirmed, herror, hwritten, hchanges, hworld]
  exact ⟨rfl, rfl, rfl, hlist, hplanned, hrewrites, hready⟩

/-- **A run of bumps keeps the files ready, and puts into every manifest the version that the bumps
lead to.** -/
theorem rewrites_worldAfter {w : World} {members : List Text} (h : ReadyToBump ws w.files members)
    {changes : List Change} (hlist : changes.map Change.member = Workspace.rootMember :: members)
    (hold : ∀ c ∈ changes, ws.queryVersion w.files c.member = .ok c.oldVersion)
    (hbumpable : ∀ c ∈ changes, Bumpable c.oldVersion) (kinds : List Kind) :
    ReadyToBump ws (worldAfter host ws prompter options w kinds).files members
      ∧ Rewrites ws w.files (carried changes kinds)
          (worldAfter host ws prompter options w kinds).files := by
  induction kinds using List.reverseRecOn with
  | nil =>
    refine ⟨h, Rewrites.self ?_⟩
    intro e he
    obtain ⟨c, hc, rfl⟩ := List.mem_map.1 he
    exact ⟨hold c hc, rfl⟩
  | append_singleton kinds kind ih =>
    obtain ⟨hready, hrewrites⟩ := ih
    rw [worldAfter_concat]
    cases hkind : kind.isKnown with
    | false =>
      obtain ⟨e, he⟩ := exists_plan_error_of_unknown ws
        (worldAfter host ws prompter options w kinds).files hkind
      rw [bump_world_of_unplanned he]
      refine ⟨hready, ?_⟩
      have hcarried : carried changes (kinds ++ [kind]) = carried changes kinds := by
        apply List.map_congr_left
        intro c hc
        cases hbump : bumpVersion (versionAfter c.oldVersion kinds) kind with
        | error e => rw [versionAfter_concat_of_error hbump]
        | ok new =>
          rw [(bumpVersion_eq_ok hbump).2.1] at hkind
          cases hkind
      rw [hcarried]
      exact hrewrites
    | true =>
      obtain ⟨-, -, -, hlist', hplanned, hrewrites', hready'⟩ :=
        bump_of_ready host haccepts hkeeps hdry hcommit hready hkind
      refine ⟨hready', hrewrites.trans hrewrites' ?_ ?_ ?_⟩
      · intro e he
        obtain ⟨c, hc, rfl⟩ := List.mem_map.1 he
        have hmem := List.mem_map_of_mem (f := Change.member) hc
        rw [hlist, ← hlist'] at hmem
        obtain ⟨d, hd, hmember⟩ := List.mem_map.1 hmem
        have hnew := (versions_of_planned hrewrites hc (hold c hc) (hbumpable c hc) (hplanned d hd)
          hmember).2
        exact ⟨_, List.mem_map_of_mem hc, d, hd, rfl, hmember, rfl,
          (bumpable_versionAfter (hbumpable c hc) kinds).isDotted.isVersionText, hnew⟩
      · rw [map_member_carried, map_member_carried]
      · rw [map_member_carried, hlist, hlist']

end Accepting

end Runs

/-- Files whose plan was made and can be written are ready to be bumped. -/
theorem readyToBump_of_plan {ws : Workspace} {fs : FileSystem} {kind : Kind} {changes : List Change}
    (hplan : plan ws fs kind = .ok changes) (hwritable : ∀ c ∈ changes, Writable ws fs c)
    (hout : ∀ content, ws.readManifest fs Workspace.rootMember = .ok content →
      VersionOutside content) :
    ∃ members, ws.queryMembers fs = .ok members
      ∧ changes.map Change.member = Workspace.rootMember :: members
      ∧ ReadyToBump ws fs members := by
  obtain ⟨content, members, hread, hmembers, hlist, hplanned⟩ := plan_eq_ok hplan
  have hquery : ws.queryMembers fs = .ok members := by
    simp only [Workspace.queryMembers, hread, hmembers]
  refine ⟨members, hquery, hlist, ⟨content, hread, hmembers, hout content hread⟩, ?_, ?_⟩
  · intro m hm
    obtain ⟨c, hc, rfl⟩ := List.mem_map.1 (hlist ▸ hm)
    exact ⟨c.oldVersion, (hplanned c hc).old, (bumpVersion_eq_ok (hplanned c hc).new).1⟩
  · intro m hm
    obtain ⟨c, hc, rfl⟩ := List.mem_map.1 (hlist ▸ hm)
    exact hwritable c hc

/-- What a report of files that are ready to be bumped prints. -/
theorem report_of_ready {ws : Workspace} {fs : FileSystem} {members : List Text}
    (h : ReadyToBump ws fs members) {version : Text}
    (hversion : ws.queryVersion fs Workspace.rootMember = .ok version) (env : Environment) :
    report env ws fs
      = ⟨versionLine version ++ memberLines env members, [membersEvent members], none⟩ := by
  obtain ⟨content, hread, hmembers, -⟩ := h.root
  have hquery : ws.queryMembers fs = .ok members := by
    simp only [Workspace.queryMembers, hread, hmembers]
  simp only [report, hversion, hquery]

/-- **Bumps can be repeated, and compose.**  Let a plan be made of files whose root manifest declares
its version outside of its members array, and let all its manifests be writable.  Then bumps that are
accepted and release nothing go through one after the other, each for the members of the first plan,
and each takes up the versions that the ones before it led to.  In the end every manifest differs from
the one at the start by its version alone, which is what the bumps lead to, one after the other, from
the version at the start; and a report prints the root's version and the same members. -/
theorem bump_repeated {host : Host} {ws : Workspace} {prompter : Prompter} {options : BumpOptions}
    {first : Kind} {w : World} {changes : List Change} (haccepts : prompter.AlwaysAccepts)
    (hkeeps : prompter.KeepsFiles) (hdry : options.dryRun = false)
    (hcommit : options.commit = false) (hplan : plan ws w.files first = .ok changes)
    (hwritable : ∀ c ∈ changes, Writable ws w.files c)
    (hout : ∀ content, ws.readManifest w.files Workspace.rootMember = .ok content →
      VersionOutside content) (later : List Kind) :
    let kinds := first :: later
    let files := (worldAfter host ws prompter options w kinds).files
    ∃ members, ws.queryMembers w.files = .ok members
      ∧ (∀ done kind rest, kinds = done ++ kind :: rest → kind.isKnown = true →
          let o := bump host ws prompter options kind (worldAfter host ws prompter options w done)
          o.confirmed = true ∧ o.error? = none
          ∧ o.written = Workspace.rootMember :: members
          ∧ o.changes.map Change.member = Workspace.rootMember :: members
          ∧ o.changes.map (fun c => (c.member, c.oldVersion, c.newVersion))
            = changes.map (fun c => (c.member, versionAfter c.oldVersion done,
                versionAfter c.oldVersion (done ++ [kind])))
          ∧ ∀ c ∈ o.changes, bumpVersion c.oldVersion kind = .ok c.newVersion)
      ∧ ((∀ kind ∈ kinds, kind.isKnown = true) → ∀ c ∈ changes,
          kinds.foldlM bumpVersion c.oldVersion = .ok (versionAfter c.oldVersion kinds))
      ∧ (∀ c ∈ changes,
          ws.queryVersion files c.member = .ok (versionAfter c.oldVersion kinds))
      ∧ Rewrites ws w.files (carried changes kinds) files
      ∧ ∀ root, ws.queryVersion w.files Workspace.rootMember = .ok root →
          report host.env ws files
            = ⟨versionLine (versionAfter root kinds) ++ memberLines host.env members,
                [membersEvent members], none⟩ := by
  intro kinds files
  obtain ⟨members, hquery, hlist, hready⟩ := readyToBump_of_plan hplan hwritable hout
  obtain ⟨-, -, -, -, -, hplanned⟩ := plan_eq_ok hplan
  have hold : ∀ c ∈ changes, ws.queryVersion w.files c.member = .ok c.oldVersion := fun c hc =>
    (hplanned c hc).old
  have hbumpable : ∀ c ∈ changes, Bumpable c.oldVersion := fun c hc =>
    (bumpVersion_eq_ok (hplanned c hc).new).1
  have hruns := rewrites_worldAfter host haccepts hkeeps hdry hcommit hready hlist hold
    hbumpable
  have hversion : ∀ c ∈ changes,
      ws.queryVersion files c.member = .ok (versionAfter c.oldVersion kinds) := fun c hc =>
    (hruns kinds).2.queryVersion_of_old (List.mem_map_of_mem hc) (hold c hc)
      (bumpable_versionAfter (hbumpable c hc) kinds).isDotted.isVersionText
  refine ⟨members, hquery, ?_, ?_, hversion, (hruns kinds).2, ?_⟩
  · intro done kind rest hkinds hkind
    obtain ⟨hconfirmed, herror, hwritten, hmembers, hnext, -, -⟩ :=
      bump_of_ready host haccepts hkeeps hdry hcommit (hruns done).1 hkind
    refine ⟨hconfirmed, herror, hwritten, hmembers, ?_, fun c hc => (hnext c hc).new⟩
    apply map_eq_map_of_members (hmembers.trans hlist.symm)
    intro d hd c hc hmember
    obtain ⟨hdOld, hdNew⟩ := versions_of_planned (hruns done).2 hc (hold c hc) (hbumpable c hc)
      (hnext d hd) hmember
    rw [hmember, hdOld, hdNew]
  · intro hknown c hc
    exact foldlM_bumpVersion (hbumpable c hc) hknown
  · intro root hroot
    have hmem : Workspace.rootMember ∈ changes.map Change.member := hlist ▸ List.mem_cons_self
    obtain ⟨c, hc, hmember⟩ := List.mem_map.1 hmem
    have hafter := hversion c hc
    rw [← hmember, hold c hc] at hroot
    rw [hmember, Except.ok.inj hroot] at hafter
    exact report_of_ready (hruns kinds).1 hafter host.env

theorem sample_writable :
    ∀ c ∈ sampleChanges, Writable sampleWorkspace (sampleFiles Mode.newFile) c := by
  have hopen : ∀ c ∈ sampleChanges,
      (sampleFiles Mode.newFile).openForWriting (sampleWorkspace.manifestPath c.member)
        = .ok (if c.drift = 0 then [ascii "Cargo.toml"] else [ascii "a", ascii "Cargo.toml"]) := by
    decide +kernel
  exact fun c hc => ⟨_, hopen c hc⟩

theorem sample_versionOutside {content : Text}
    (h : sampleWorkspace.readManifest (sampleFiles Mode.newFile) Workspace.rootMember
      = .ok content) : VersionOutside content := by
  have hroot : sampleWorkspace.readManifest (sampleFiles Mode.newFile) Workspace.rootMember
      = .ok (ascii "[package]\nversion = \"1.2.3\"\n[workspace]\nmembers = [\"./\", \"a\", \"b\"]\n") := by
    decide +kernel
  rw [hroot] at h
  obtain rfl := Except.ok.inj h
  intro site m hsite hm
  -- the members array opens behind the version
  have hstart : (findVersion? (ascii
      "[package]\nversion = \"1.2.3\"\n[workspace]\nmembers = [\"./\", \"a\", \"b\"]\n")).map
        VersionSite.start = some 21 := by decide +kernel
  have hbefore : (findMembersSite? (ascii
      "[package]\nversion = \"1.2.3\"\n[workspace]\nmembers = [\"./\", \"a\", \"b\"]\n")).map
        (fun m => m.before.length) = some 51 := by decide +kernel
  rw [hsite, Option.map_some] at hstart
  rw [hm, Option.map_some] at hbefore
  rintro ⟨hle, -⟩
  rw [Option.some.inj hstart, Option.some.inj hbefore] at hle
  exact absurd hle (by decide)

/-- Three bumps of the sample files, where each manifest is reached twice. -/
theorem bump_repeated_three :
    let files := (worldAfter sampleHost sampleWorkspace (.static true) ⟨false, false, false⟩
      (sampleWorld []) [.minor, .patch, .major]).files
    plan sampleWorkspace (sampleFiles Mode.newFile) .minor = .ok sampleChanges
    ∧ sampleWorkspace.queryVersion files (ascii "b") = .ok (ascii "1.0.0")
    ∧ (report [] sampleWorkspace files).out
      = ascii "Crate version: 2.0.0\n[*] This crate has the following members:\n  - ./\n  - a\n  - b\n" := by
  intro files
  have haccepts : (Prompter.static true).AlwaysAccepts := fun _ _ => rfl
  obtain ⟨members, hmembers, -, -, hversion, -, hreport⟩ :=
    @bump_repeated sampleHost sampleWorkspace (.static true) ⟨false, false, false⟩ .minor
      (sampleWorld []) sampleChanges haccepts (Prompter.keepsFiles_static true) rfl rfl
      plan_sample sample_writable (fun _ => sample_versionOutside) [.patch, .major]
  have hlist : sampleWorkspace.queryMembers (sampleFiles Mode.newFile)
      = .ok [ascii "./", ascii "a", ascii "b"] := by decide +kernel
  have hroot : sampleWorkspace.queryVersion (sampleFiles Mode.newFile) Workspace.rootMember
      = .ok (ascii "1.2.3") := by decide +kernel
  have hfold : versionAfter (ascii "1.2.3") [.minor, .patch, .major] = ascii "2.0.0" := by
    decide +kernel
  have hfold' : versionAfter (ascii "0.9.9") [.minor, .patch, .major] = ascii "1.0.0" := by
    decide +kernel
  have hb := hversion ⟨ascii "b", ascii "b/Cargo.toml", [], ascii "0.9.9", ascii "0.10.0", -1⟩
    (by decide)
  rw [hfold'] at hb
  obtain rfl := Except.ok.inj (hmembers.symm.trans hlist)
  have hprinted := hreport (ascii "1.2.3") hroot
  rw [hfold] at hprinted
  refine ⟨plan_sample, hb, ?_⟩
  rw [show report [] sampleWorkspace files = _ from hprinted]
  decide +kernel

end CrateBump
