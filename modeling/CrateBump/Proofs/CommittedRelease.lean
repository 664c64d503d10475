/-
# Committed releases

A bump that is to be committed checks the worktree first, writes the manifests, and stages and commits
them.  The paths that the check lets pass, the files that are written and the paths that are staged are
the same manifests, seen through the same links; so what the commit records besides them is what was
committed before, and what the status reports afterwards is not left over from before.

Two things can still be reported after a release, and nothing else (`Released.status`): a manifest
below a `.git` entry, which is committed but never looked for again, and a file that nobody tracks
and that is not ignored any more, because a manifest is itself a file of ignore patterns.
-/
import CrateBump.Proofs.BumpRun
import CrateBump.Proofs.RewrittenWorktree
import CrateBump.Proofs.Staging
import CrateBump.Proofs.WorktreeStatus

namespace CrateBump

open Git

/-! ## The check -/

/-- The check passes if only the given files are changed. -/
theorem checkClean_eq_ok_iff {host : Host} {w : World} {root : Text} {allowed : List Text} :
    checkClean host w root allowed = .ok ()
      ↔ ∃ wt relatives, openWorktree host w.files root = .ok wt
        ∧ relativePaths wt host.env w.files allowed = .ok relatives
        ∧ wt.statusError? w.files (w.repository wt.gitDir).index = none
        ∧ ∀ path ∈ wt.changedPaths w.files (w.repository wt.gitDir), path ∈ relatives := by
  unfold checkClean
  cases openWorktree host w.files root with
  | error e => simp
  | ok wt =>
    dsimp only
    cases hpaths : relativePaths wt host.env w.files allowed with
    | error e => simp [hpaths]
    | ok relatives =>
      dsimp only
      have hunrelated : unrelated (wt.changedPaths w.files (w.repository wt.gitDir)) relatives = []
            ↔ ∀ path ∈ wt.changedPaths w.files (w.repository wt.gitDir), path ∈ relatives := by
        rw [unrelated, List.filter_eq_nil_iff]
        simp
      cases hstatus : wt.statusError? w.files (w.repository wt.gitDir).index with
      | some e => simp [hstatus]
      | none =>
        dsimp only
        constructor
        · intro h
          split at h
          · next hnone => exact ⟨wt, relatives, rfl, hpaths, hstatus, hunrelated.1 hnone⟩
          · cases h
        · rintro ⟨wt', relatives', hwt, hpaths', -, hall⟩
          obtain rfl := Except.ok.inj hwt
          obtain rfl := Except.ok.inj (hpaths.symm.trans hpaths')
          rw [hunrelated.2 hall]

/-! ## Staging -/

/-- The manifest paths are clean and lead to files. -/
def LeadToFiles (fs : FileSystem) (paths : List Text) : Prop :=
  ∀ path ∈ paths, ∃ u loc mode content, path = Path.clean u ∧ fs.resolve true path = .ok loc
    ∧ fs.node? loc = some (.file mode content)

theorem exists_of_forall₂_left {α β : Type} {R : α → β → Prop} {as : List α} {bs : List β}
    (h : List.Forall₂ R as bs) {a : α} (ha : a ∈ as) : ∃ b ∈ bs, R a b := by
  induction h with
  | nil => cases ha
  | cons hab _ ih =>
    rcases List.mem_cons.1 ha with rfl | ha
    · exact ⟨_, List.mem_cons_self, hab⟩
    · obtain ⟨b, hb, hR⟩ := ih ha
      exact ⟨b, List.mem_cons_of_mem _ hb, hR⟩

theorem exists_of_forall₂_right {α β : Type} {R : α → β → Prop} {as : List α} {bs : List β}
    (h : List.Forall₂ R as bs) {b : β} (hb : b ∈ bs) : ∃ a ∈ as, R a b :=
  exists_of_forall₂_left (List.Forall₂.flip (R := flip R) h) hb

/-- Paths stay in place in file systems of the same shape. -/
theorem FileSystem.SameShape.inPlace {fs gs : FileSystem} (h : fs.SameShape gs) {env : Environment}
    {path : Text} (hplace : InPlace env fs path) : InPlace env gs path := by
  obtain ⟨target, htarget, hplace⟩ := hplace
  refine ⟨target, by rw [h.absolutePath_eq, htarget], ?_⟩
  rw [h.current, h.resolve_eq, h.realLocation_eq]
  exact hplace

/-- Paths and what they are from the top of a worktree. -/
theorem forall₂_relativePaths {wt : Worktree} {env : Environment} {fs : FileSystem}
    {paths relatives : List Text} (h : relativePaths wt env fs paths = .ok relatives) :
    List.Forall₂ (fun path relative => wt.relativePath env fs path = .ok relative) paths
      relatives := by
  induction paths generalizing relatives with
  | nil =>
    obtain rfl := Except.ok.inj h
    exact .nil
  | cons path rest ih =>
    rw [relativePaths] at h
    split at h
    · cases h
    next relative hrelative =>
    obtain ⟨others, hothers, rfl⟩ := exists_of_map_eq_ok h
    exact .cons hrelative (ih hothers)

section Staging

variable {env : Environment} {fs : FileSystem} {wt : Worktree} (hfs : fs.Proper)
  (hopened : Opened fs wt)
include hfs hopened

/-- Staging files that paths lead to makes the index agree with the worktree in them, and in nothing
else. -/
theorem stageAll_of_files {paths relatives : List Text}
    (hrelatives : List.Forall₂ (fun path relative => wt.relativePath env fs path = .ok relative)
      paths relatives)
    (hfiles : LeadToFiles fs paths) (hplace : ∀ path ∈ paths, InPlace env fs path)
    {r r' : Repository} (htracked : ∀ relative ∈ relatives, StaysTracked wt fs r relative)
    (h : stageAll wt fs r relatives = (r', none)) :
    r'.commits = r.commits ∧ r'.tags = r.tags
      ∧ (∀ path ∈ paths, ∃ names mode content, names ≠ []
          ∧ fs.resolve true path = .ok (wt.top ++ names)
          ∧ fs.node? (wt.top ++ names) = some (.file mode content)
          ∧ wt.relativePath env fs path = .ok (Text.joinWith [slash] names)
          ∧ r'.index.get? (Text.joinWith [slash] names)
            = some (.file mode.isExecutable content))
      ∧ ∀ p, (p ∈ relatives → (r'.index.get? p).map Sight.blob = wt.sightAt? fs p)
        ∧ (p ∉ relatives → r'.index.get? p = r.index.get? p) := by
  induction hrelatives generalizing r with
  | nil =>
    obtain ⟨rfl, -⟩ := Prod.mk.inj h
    exact ⟨rfl, rfl, fun path hpath => absurd hpath List.not_mem_nil,
      fun p => ⟨fun hp => absurd hp List.not_mem_nil, fun _ => rfl⟩⟩
  | @cons path relative rest relatives hrelative hrest ih =>
    rw [stageAll] at h
    split at h
    · cases (Prod.mk.inj h).2
    next staged hstage =>
    obtain ⟨u, loc, mode, content, rfl, hloc, hnode⟩ := hfiles path List.mem_cons_self
    obtain ⟨names, hne, rfl, rfl, hread, hsameCommits, hsameTags, hput⟩ :=
      stage_of_file hfs hopened hloc hnode (hplace _ List.mem_cons_self) hrelative
        (htracked _ List.mem_cons_self) hstage
    -- what was staged is in the index from now on
    have hkept : ∀ p ∈ relatives, StaysTracked wt fs staged p := by
      intro p hp hhead hnone
      rw [hput] at hnone
      split at hnone
      · cases hnone
      · refine htracked p (List.mem_cons_of_mem _ hp) ?_ hnone
        rwa [Repository.headTree, ← hsameCommits]
    obtain ⟨hcommits, htags, hpaths, hindex⟩ :=
      ih (fun p hp => hfiles p (List.mem_cons_of_mem _ hp))
        (fun p hp => hplace p (List.mem_cons_of_mem _ hp)) hkept h
    have hslash : ∀ t ∈ names, slash ∉ t := fun t ht =>
      (hfs.isName hnode t (List.mem_append_right _ ht)).slash_not_mem
    have hsight : wt.sightAt? fs (Text.joinWith [slash] names)
        = some (.blob (.file mode.isExecutable content)) := by
      rw [Worktree.sightAt?, Text.splitOn_joinWith hne hslash, hnode, Option.bind_some, sightOf?,
        if_pos hread]
    have hown : r'.index.get? (Text.joinWith [slash] names)
        = some (.file mode.isExecutable content) := by
      by_cases hlater : Text.joinWith [slash] names ∈ relatives
      · have hlast := (hindex _).1 hlater
        rw [hsight] at hlast
        obtain ⟨blob, hblob, heq⟩ := Option.map_eq_some_iff.1 hlast
        rw [hblob, Sight.blob.inj heq]
      · rw [(hindex _).2 hlater, hput, if_pos rfl]
    refine ⟨hcommits.trans hsameCommits, htags.trans hsameTags, ?_, fun p => ⟨fun hp => ?_, ?_⟩⟩
    · refine List.forall_mem_cons.2 ⟨?_, hpaths⟩
      exact ⟨names, mode, content, hne, hloc, hnode, hrelative, hown⟩
    · rcases List.mem_cons.1 hp with rfl | hp
      · rw [hown, hsight, Option.map_some]
      · exact (hindex p).1 hp
    · intro hp
      rw [List.mem_cons, not_or] at hp
      rw [(hindex p).2 hp.2, hput, if_neg hp.1]

end Staging

/-! ## The commit -/

/-- A repository after its index was committed and the commit, if asked, tagged. -/
def Git.Repository.released (r : Repository) (version : Text) (author : Identity) (tag : Bool) :
    Repository where
  commits := r.commits ++ [⟨version, author, r.index⟩]
  tags := if tag then r.tags ++ [(tagFor version, r.commits.length)] else r.tags
  index := r.index

/-- A release that succeeded has staged, committed and tagged, in this order. -/
theorem commitRelease_eq {host : Host} {w : World} {root : Text} {paths : List Text}
    {version : Text} {tag : Bool}
    (h : (commitRelease host w root paths version tag).error? = none) :
    ∃ wt relatives staged author, openWorktree host w.files root = .ok wt
      ∧ relativePaths wt host.env w.files paths = .ok relatives
      ∧ stageAll wt w.files (w.repository wt.gitDir) relatives = (staged, none)
      ∧ (commitRelease host w root paths version tag).world
        = w.setRepository wt.gitDir (staged.released version author tag)
      ∧ (commitRelease host w root paths version tag).release
        = ⟨host.commitName staged.commits.length, if tag then tagFor version else []⟩
      ∧ (tag = true → staged.tags.lookup (tagFor version) = none) := by
  have hends := releaseEnds_commitRelease host w root paths version tag
  generalize commitRelease host w root paths version tag = outcome at h hends ⊢
  cases hends with
  | invalidTag htag hinvalid => cases h
  | unopened hopen => cases h
  | unresolved hopen hpaths => cases h
  | uncommitted hopen hhistory hno => cases h
  | tagRefused hprepared htag hvalid hrefused => cases h
  | @untagged wt staged committed hprepared htag =>
    obtain ⟨relatives, hpaths, hstaging⟩ := hprepared.staging
    refine ⟨wt, relatives, staged, (author host w.files wt.gitDir).recorded, hprepared.opened,
      hpaths, hstaging, ?_⟩
    rw [commit_eq_ok hprepared.commit, htag]
    simp [Repository.released]
  | @tagged wt staged committed tagged hprepared htag hvalid htagged =>
    obtain ⟨relatives, hpaths, hstaging⟩ := hprepared.staging
    refine ⟨wt, relatives, staged, (author host w.files wt.gitDir).recorded, hprepared.opened,
      hpaths, hstaging, ?_⟩
    rcases tagHead_cases committed (tagFor version) with ⟨-, e, herror⟩ | ⟨-, hnew, hok⟩
    · rw [htagged] at herror
      cases herror
    · rw [htagged] at hok
      obtain rfl := Except.ok.inj hok
      rw [commit_eq_ok hprepared.commit] at hnew ⊢
      rw [htag]
      simpa [Repository.released] using hnew

/-- The last stage of a bump that was committed without an error. -/
theorem releaseStage_of_commit {host : Host} {ws : Workspace} {options : BumpOptions}
    {before : BumpOutcome} (hcommit : options.commit = true)
    (h : (releaseStage host ws options before).error? = none) :
    let outcome := commitRelease host before.world ws.dir (before.changes.map Change.path)
      ((before.changes.head?.map Change.newVersion).getD []) options.tag
    outcome.error? = none ∧ (releaseStage host ws options before).world = outcome.world
      ∧ (releaseStage host ws options before).release? = some outcome.release := by
  intro outcome
  unfold releaseStage at h ⊢
  rw [if_pos hcommit] at h ⊢
  dsimp only at h ⊢
  split at h
  · cases h
  next hnone =>
  exact ⟨hnone, rfl, rfl⟩

/-- A bump that was written and committed without an error. -/
theorem writeStage_of_commit {host : Host} {ws : Workspace} {options : BumpOptions}
    {before : BumpOutcome} (hcommit : options.commit = true)
    (h : (writeStage host ws options before).error? = none) :
    let applied := applyChanges ws before.world.files before.changes
    let outcome := commitRelease host { before.world with files := applied.files } ws.dir
      (before.changes.map Change.path) ((before.changes.head?.map Change.newVersion).getD [])
      options.tag
    outcome.error? = none ∧ (writeStage host ws options before).world = outcome.world
      ∧ (writeStage host ws options before).release? = some outcome.release := by
  intro applied outcome
  have happlied : applied.error? = none := (writeStage_fields host ws options before).2.2.2.2.2 h
  unfold writeStage at h ⊢
  dsimp only at h ⊢
  rw [show (applyChanges ws before.world.files before.changes).error? = none from happlied] at h ⊢
  exact releaseStage_of_commit hcommit h

/-- A release without an error ends a bump whose manifests were written without an error. -/
theorem writeStage_of_release (host : Host) (ws : Workspace) (options : BumpOptions)
    (before : BumpOutcome) (hcommit : options.commit = true) {gs : FileSystem}
    (happlied : (applyChanges ws before.world.files before.changes).error? = none)
    (hfiles : (applyChanges ws before.world.files before.changes).files = gs) :
    let outcome := commitRelease host { before.world with files := gs } ws.dir
      (before.changes.map Change.path) ((before.changes.head?.map Change.newVersion).getD [])
      options.tag
    outcome.error? = none → (writeStage host ws options before).error? = before.error?
      ∧ (writeStage host ws options before).world = outcome.world := by
  intro outcome houtcome
  unfold writeStage releaseStage
  dsimp only
  rw [happlied, hfiles]
  dsimp only
  rw [if_pos hcommit, show (commitRelease host { before.world with files := gs } ws.dir
    (before.changes.map Change.path) ((before.changes.head?.map Change.newVersion).getD [])
    options.tag).error? = none from houtcome]
  exact ⟨rfl, rfl⟩

/-! ## The release as a whole -/

/-- What is recorded when the changes were committed as `version`. -/
structure Released (env : Environment) (wt : Worktree) (tag : Bool) (changes : List Change)
    (version : Text) (before after : World) (commit : Commit) : Prop where
  /-- There is one more commit. -/
  commits : (after.repository wt.gitDir).commits = (before.repository wt.gitDir).commits ++ [commit]
  message : commit.message = version
  /-- The commit changes manifests only. -/
  changed : ∀ path, (before.repository wt.gitDir).headTree.get? path ≠ commit.tree.get? path →
    ∃ c ∈ changes, wt.relativePath env before.files c.path = .ok path
  /-- Every manifest is recorded as it was written, under the names that lead to it from the top of
  the worktree. -/
  manifests : ∀ c ∈ changes, ∃ names mode content, names ≠ []
    ∧ before.files.resolve true c.path = .ok (wt.top ++ names)
    ∧ wt.relativePath env before.files c.path = .ok (Text.joinWith [slash] names)
    ∧ after.files.node? (wt.top ++ names) = some (.file mode content)
    ∧ commit.tree.get? (Text.joinWith [slash] names) = some (.file mode.isExecutable content)
  /-- There is a status. -/
  readable : wt.statusError? after.files (after.repository wt.gitDir).index = none
  /-- Nothing is reported but manifests below a `.git` entry and files without a record that are not
  ignored any more. -/
  status : ∀ path ∈ wt.changedPaths after.files (after.repository wt.gitDir),
    (gitName ∈ Text.splitOn slash path
        ∧ ∃ c ∈ changes, wt.relativePath env before.files c.path = .ok path)
      ∨ commit.tree.get? path = none ∧ wt.ignores before.files path = true
        ∧ wt.ignores after.files path = false
  tags : (after.repository wt.gitDir).tags
    = if tag then (before.repository wt.gitDir).tags
        ++ [(tagFor version, (before.repository wt.gitDir).commits.length)]
      else (before.repository wt.gitDir).tags
  /-- The tag is a new one. -/
  tag_new : tag = true → (before.repository wt.gitDir).tags.lookup (tagFor version) = none
  others : ∀ gitDir, gitDir ≠ wt.gitDir → after.repository gitDir = before.repository gitDir

/-- Nothing is reported after a release that neither went below a `.git` entry nor changed what is
ignored. -/
theorem Released.changedPaths_eq_nil {env : Environment} {wt : Worktree} {tag : Bool}
    {changes : List Change} {version : Text} {before after : World} {commit : Commit}
    (h : Released env wt tag changes version before after commit)
    (hgit : ∀ c ∈ changes, ∀ path, wt.relativePath env before.files c.path = .ok path →
      gitName ∉ Text.splitOn slash path)
    (hignores : ignorePatterns after.files wt.top = ignorePatterns before.files wt.top) :
    wt.changedPaths after.files (after.repository wt.gitDir) = [] := by
  refine List.eq_nil_iff_forall_not_mem.2 fun path hpath => ?_
  rcases h.status path hpath with ⟨hinside, c, hc, hrelative⟩ | ⟨-, hbefore, hafter⟩
  · exact hgit c hc path hrelative hinside
  · rw [Worktree.ignores, hignores, ← Worktree.ignores, hbefore] at hafter
    cases hafter

theorem exists_manifestPath_eq_clean (ws : Workspace) (member : Text) :
    ∃ u, ws.manifestPath member = Path.clean u := by
  have hname : ws.manifestName ≠ [] := by
    unfold Workspace.manifestName
    split
    · decide
    · assumption
  unfold Workspace.manifestPath Path.join
  split
  · next hnone =>
    have hmem : ws.manifestName ∈ [ws.dir, member, ws.manifestName].filter (fun t => !t.isEmpty) :=
      List.mem_filter.2 ⟨by simp, by simpa using hname⟩
    rw [hnone] at hmem
    cases hmem
  · exact ⟨_, rfl⟩

section Release

variable {host : Host} {ws : Workspace} {kind : Kind} {changes : List Change} {fs gs : FileSystem}

/-- The manifests of a plan that was carried out are files that clean paths lead to. -/
theorem leadToFiles_of_rewrites (hplanned : ∀ c ∈ changes, Planned ws fs kind c)
    (hrewrites : Rewrites ws fs changes gs) : LeadToFiles gs (changes.map Change.path) := by
  intro path hpath
  obtain ⟨c, hc, rfl⟩ := List.mem_map.1 hpath
  obtain ⟨u, hu⟩ := exists_manifestPath_eq_clean ws c.member
  obtain ⟨loc, mode, site, hloc, -, -, hafter⟩ := hrewrites.rewritten c hc
  refine ⟨u, loc, mode, _, ?_, ?_, hafter⟩
  · rw [(hplanned c hc).path, hu]
  · rw [(hplanned c hc).path, hrewrites.sameShape.resolve_eq, hloc]

/-- Besides the manifests, a path of the worktree stays what it was. -/
theorem sightAt?_of_rewrites {wt : Worktree} (hrewrites : Rewrites ws fs changes gs) {path : Text}
    (hpath : ∀ c ∈ changes, ∀ names,
      fs.resolve true (ws.manifestPath c.member) = .ok (wt.top ++ names) →
      path ≠ Text.joinWith [slash] names) :
    wt.sightAt? gs path = wt.sightAt? fs path := by
  rw [Worktree.sightAt?, Worktree.sightAt?, hrewrites.untouched]
  intro c hc hloc
  exact hpath c hc _ hloc (Text.joinWith_splitOn slash path).symm

/-- Rewriting versions keeps a status from failing. -/
theorem statusError?_of_rewrites (hfs : fs.Proper) (hgs : gs.Proper)
    (hrewrites : Rewrites ws fs changes gs) {wt : Worktree} {index index' : Snapshot}
    (h : wt.statusError? fs index = none) : wt.statusError? gs index' = none := by
  obtain ⟨hindex, hlistable⟩ := (Worktree.statusError?_eq_none_iff hfs).1 h
  refine (Worktree.statusError?_eq_none_iff hgs).2 ⟨?_, fun names mode hgit hnode => ?_⟩
  · unfold indexError? at hindex ⊢
    rcases hrewrites.readFile_eq_or (FileSystem.textOf (wt.gitDir ++ [ascii "index"])) with
      heq | ⟨content, site, v, -, hread, -⟩
    · rw [heq]
      exact hindex
    · -- an index that can be read is broken
      rw [hread] at hindex
      dsimp only at hindex
      split at hindex <;> [skip; split at hindex <;> [skip; split at hindex]] <;> cases hindex
  · rcases hrewrites.sameShape.node (wt.top ++ names) with heq | ⟨_, _, _, -, hfile⟩
    · have hlist := hlistable names mode hgit (heq ▸ hnode)
      refine ⟨hlist.read, hlist.search.imp_right fun hempty name => ?_⟩
      rcases hrewrites.sameShape.node (wt.top ++ names ++ [name]) with heq | ⟨_, _, _, hfile, -⟩
      · rw [heq, hempty]
      · rw [hempty] at hfile
        cases hfile
    · rw [hnode] at hfile
      cases hfile

/-- What is reported after files were staged and committed of which alone changes were reported
before. -/
theorem changedPaths_of_staged (hfs : fs.Proper) (hgs : gs.Proper) {wt : Worktree} {r r' : Repository}
    {staged : List Text} (hbefore : ∀ path ∈ wt.changedPaths fs r, path ∈ staged)
    (hhead : r'.headTree = r'.index)
    (hindex : ∀ path, (path ∈ staged → (r'.index.get? path).map Sight.blob = wt.sightAt? gs path)
      ∧ (path ∉ staged → r'.index.get? path = r.index.get? path))
    (hsight : ∀ path, path ∉ staged → wt.sightAt? gs path = wt.sightAt? fs path) {path : Text}
    (h : path ∈ wt.changedPaths gs r') :
    (gitName ∈ Text.splitOn slash path ∧ path ∈ staged)
      ∨ r'.index.get? path = none ∧ wt.ignores fs path = true ∧ wt.ignores gs path = false := by
  rw [Worktree.mem_changedPaths_iff, hhead] at h
  obtain ⟨hne, hnotIgnored⟩ := h.resolve_left (fun hne => hne rfl)
  rw [Worktree.get?_snapshot hgs] at hne
  by_cases hstaged : path ∈ staged
  · -- what was staged is what is there, where anything is looked for
    left
    refine ⟨?_, hstaged⟩
    by_contra hgit
    rw [if_neg hgit, (hindex path).1 hstaged] at hne
    exact hne rfl
  · -- it was there before, and not reported
    right
    have hunchanged : path ∉ wt.changedPaths fs r := fun hmem => hstaged (hbefore path hmem)
    rw [Worktree.mem_changedPaths_iff, Worktree.get?_snapshot hfs, not_or, not_and] at hunchanged
    rw [(hindex path).2 hstaged, hsight path hstaged] at hne
    rw [(hindex path).2 hstaged] at hnotIgnored ⊢
    have hignored := hunchanged.2 hne
    rw [Classical.not_imp, Bool.not_eq_false] at hignored
    exact ⟨hignored.1, hignored.2, hnotIgnored hignored.1⟩

/-- **A release of rewritten manifests after a check that let nothing else pass.** -/
theorem released_of_commitRelease {w mid : World} (hfs : w.files.Proper)
    (hnodes : mid.files.nodes.map Prod.fst = w.files.nodes.map Prod.fst)
    (hplanned : ∀ c ∈ changes, Planned ws w.files kind c)
    (hrewrites : Rewrites ws w.files changes mid.files)
    (hrepositories : mid.repositories = w.repositories)
    (hcheck : checkClean host w ws.dir (changes.map Change.path) = .ok ())
    (hplace : ∀ c ∈ changes, InPlace host.env w.files c.path)
    (htracked : ∀ wt, openWorktree host w.files ws.dir = .ok wt → ∀ c ∈ changes, ∀ path,
      wt.relativePath host.env w.files c.path = .ok path →
      StaysTracked wt mid.files (w.repository wt.gitDir) path) {version : Text} {tag : Bool}
    (herror : (commitRelease host mid ws.dir (changes.map Change.path) version tag).error? = none) :
    ∃ wt commit, openWorktree host w.files ws.dir = .ok wt
      ∧ openWorktree host mid.files ws.dir = .ok wt
      ∧ Released host.env wt tag changes version w
          (commitRelease host mid ws.dir (changes.map Change.path) version tag).world commit
      ∧ (commitRelease host mid ws.dir (changes.map Change.path) version tag).release
        = ⟨host.commitName (w.repository wt.gitDir).commits.length,
            if tag then tagFor version else []⟩ := by
  have hmid : mid.files.Proper := hrewrites.sameShape.proper hnodes hfs
  have hrepository : ∀ g, mid.repository g = w.repository g := by
    intro g
    rw [World.repository, World.repository, hrepositories]
  obtain ⟨wt, allowed, hopen, hallowed, hstatus, hclean⟩ := checkClean_eq_ok_iff.1 hcheck
  obtain ⟨wt', relatives, staged, author, hopen', hrelatives, hstaged, hworld, hrelease, htag⟩ :=
    commitRelease_eq herror
  obtain rfl : wt' = wt := hrewrites.openWorktree_unique hopen hopen'
  have hopened : Opened mid.files wt' := opened_of_openWorktree hopen'
  -- paths are the same before and after the manifests were written
  have hrelative : ∀ path, wt'.relativePath host.env mid.files path
      = wt'.relativePath host.env w.files path := hrewrites.sameShape.relativePath_eq wt' host.env
  obtain rfl : relatives = allowed := by
    rw [hrewrites.sameShape.relativePaths_eq] at hrelatives
    exact Except.ok.inj (hrelatives.symm.trans hallowed)
  have hpairs := forall₂_relativePaths hallowed
  have hmem : ∀ path, path ∈ relatives →
      ∃ c ∈ changes, wt'.relativePath host.env w.files c.path = .ok path := by
    intro path hpath
    obtain ⟨p, hp, heq⟩ := exists_of_forall₂_right hpairs hpath
    obtain ⟨c, hc, rfl⟩ := List.mem_map.1 hp
    exact ⟨c, hc, heq⟩
  obtain ⟨hcommits, htags, hmanifests, hindex⟩ :=
    stageAll_of_files hmid hopened (forall₂_relativePaths hrelatives)
      (leadToFiles_of_rewrites hplanned hrewrites) (List.forall_mem_map.2 fun c hc =>
        hrewrites.sameShape.inPlace (hplace c hc))
      (fun path hpath => by
        obtain ⟨c, hc, heq⟩ := hmem path hpath
        rw [hrepository]
        exact htracked wt' hopen c hc path heq) hstaged
  rw [hrepository] at hcommits htags
  simp only [hrepository] at hindex
  simp only [hrelative, hrewrites.sameShape.resolve_eq] at hmanifests
  have hsight : ∀ path, path ∉ relatives →
      wt'.sightAt? mid.files path = wt'.sightAt? w.files path := by
    intro path hpath
    refine sightAt?_of_rewrites hrewrites fun c hc names hloc hnames => hpath ?_
    obtain ⟨names', _, _, -, hloc', -, hnames', -⟩ := hmanifests c.path (List.mem_map_of_mem hc)
    rw [(hplanned c hc).path, hloc] at hloc'
    obtain rfl := List.append_cancel_left (Except.ok.inj hloc')
    obtain ⟨relative, hmemRelative, heq⟩ :=
      exists_of_forall₂_left hpairs (List.mem_map_of_mem hc)
    rw [hnames, ← Except.ok.inj (heq.symm.trans hnames')]
    exact hmemRelative
  have hrecorded : ∀ g, (mid.setRepository wt'.gitDir (staged.released version author tag)).repository g
      = if g = wt'.gitDir then staged.released version author tag else w.repository g := by
    intro g
    rw [World.repository_setRepository, hrepository]
  have hhead : (staged.released version author tag).headTree = staged.index := by
    simp [Repository.headTree, Repository.released]
  refine ⟨wt', ⟨version, author, staged.index⟩, hopen, hopen', ?_, by rw [hrelease, hcommits]⟩
  rw [hworld]
  refine
    { commits := ?commits, message := rfl, changed := ?changed, manifests := ?manifests
      readable := ?readable, status := ?status, tags := ?tags, tag_new := ?tag_new
      others := ?others }
  case commits => rw [hrecorded, if_pos rfl, Repository.released, hcommits]
  case changed =>
    -- a path that is no manifest was as in the last commit, or the check would have reported it
    intro path hne
    apply hmem
    by_contra hpath
    have hunchanged : path ∉ wt'.changedPaths w.files (w.repository wt'.gitDir) :=
      fun hchanged => hpath (hclean path hchanged)
    rw [Worktree.mem_changedPaths_iff, not_or, not_not] at hunchanged
    exact hne (by rw [hunchanged.1, (hindex path).2 hpath])
  case manifests =>
    intro c hc
    obtain ⟨names, mode, content, hne, hloc, hnode, hnames, hcontent⟩ :=
      hmanifests c.path (List.mem_map_of_mem hc)
    exact ⟨names, mode, content, hne, hloc, hnames, hnode, hcontent⟩
  case readable => exact statusError?_of_rewrites hfs hmid hrewrites hstatus
  case status =>
    intro path hpath
    rw [hrecorded, if_pos rfl] at hpath
    rcases changedPaths_of_staged hfs hmid hclean hhead hindex hsight hpath with
      ⟨hgit, hmanifest⟩ | hignored
    · exact Or.inl ⟨hgit, hmem path hmanifest⟩
    · exact Or.inr hignored
  case tags => rw [hrecorded, if_pos rfl, Repository.released, htags, hcommits]
  case tag_new =>
    intro htrue
    rw [← htags]
    exact htag htrue
  case others =>
    intro g hg
    rw [hrecorded, if_neg hg]

end Release

/-- **A bump that was committed is recorded in full, and nothing but its manifests is.**  Let every
manifest be staged where it was written, and none that the last commit has be out of the index where
no status looks for it.  Then after a confirmed bump with a commit that ends without an error there is
one more commit, with the root's new version as its message.  It changes manifests of the plan only,
with links resolved, and has each of them as it was written.  If a tag was asked for, it is a new one
and stands at that commit, and no other tag or repository is touched.  The status reports nothing
afterwards, unless a manifest lies below a `.git` entry or is itself a file of ignore patterns. -/
theorem bump_committed {host : Host} {ws : Workspace} {prompter : Prompter} {options : BumpOptions}
    {kind : Kind} {w : World} (hfs : w.files.Proper) (hkeepsFiles : prompter.KeepsFiles)
    (hkeepsRepositories : prompter.KeepsRepositories) (hcommit : options.commit = true)
    (hconfirmed : (bump host ws prompter options kind w).confirmed = true)
    (herror : (bump host ws prompter options kind w).error? = none)
    (hplace : ∀ c ∈ (bump host ws prompter options kind w).changes,
      InPlace host.env w.files c.path)
    (htracked : ∀ wt, openWorktree host w.files ws.dir = .ok wt →
      ∀ c ∈ (bump host ws prompter options kind w).changes, ∀ path,
        wt.relativePath host.env w.files c.path = .ok path →
        StaysTracked wt (bump host ws prompter options kind w).world.files (w.repository wt.gitDir)
          path) :
    let o := bump host ws prompter options kind w
    ∃ wt root commit, openWorktree host w.files ws.dir = .ok wt
      ∧ openWorktree host o.world.files ws.dir = .ok wt
      ∧ o.changes.head? = some root ∧ root.member = Workspace.rootMember
      ∧ Released host.env wt options.tag o.changes root.newVersion w o.world commit
      ∧ (∀ c ∈ o.changes, ws.queryVersion o.world.files c.member = .ok c.newVersion)
      ∧ o.release? = some ⟨host.commitName (w.repository wt.gitDir).commits.length,
          if options.tag then tagFor root.newVersion else []⟩
      ∧ ((∀ c ∈ o.changes, ∀ path, wt.relativePath host.env w.files c.path = .ok path →
            gitName ∉ Text.splitOn slash path) →
          (∀ c ∈ o.changes, ∀ loc, w.files.resolve true c.path = .ok loc →
            ¬ IsPatternFile w.files wt.top loc) →
          wt.changedPaths o.world.files (o.world.repository wt.gitDir) = []) := by
  intro o
  have hends := bumpEnds_bump host ws prompter options kind w
  change o.confirmed = true at hconfirmed
  change o.error? = none at herror
  change ∀ c ∈ o.changes, _ at hplace
  change ∀ wt, _ → ∀ c ∈ o.changes, ∀ path, _ → StaysTracked wt o.world.files _ path at htracked
  change BumpEnds host ws prompter options kind w o at hends
  generalize o = o at hends hconfirmed herror hplace htracked ⊢
  cases hends with
  | unplanned hplan => cases hconfirmed
  | dryRun hplan hdry out => cases hconfirmed
  | unclean hplan hdry hcheck => cases hconfirmed
  | failed hplan hdry hcheck hreply => cases hconfirmed
  | declined hplan hdry hcheck hreply out => cases hconfirmed
  | @written changes hplan hdry hcheck hreply =>
    obtain ⟨content, members, -, -, hlist, hplanned⟩ := plan_eq_ok hplan
    have hbefore : (replied host prompter changes w).world.files = w.files := hkeepsFiles _ w
    obtain ⟨-, -, hchanges, -, hfiles, hnone⟩ :=
      writeStage_fields host ws options (replied host prompter changes w)
    rw [hbefore] at hfiles hnone
    rcases applyChanges_cases hplanned with
      ⟨-, gs, hrewrites, hrun⟩ | ⟨done, c, rest, e, gs, -, -, -, -, hrun⟩
    · obtain ⟨root, later, hhead, hmember⟩ : ∃ root later, changes = root :: later
          ∧ root.member = Workspace.rootMember := by
        cases changes with
        | nil => cases hlist
        | cons root later => exact ⟨root, later, rfl, (List.cons.inj hlist).1⟩
      have hnodes : gs.nodes.map Prod.fst = w.files.nodes.map Prod.fst := by
        have happly := map_fst_applyAfter ws [] w.files (writesOf changes)
        rw [show applyAfter ws [] w.files (writesOf changes) = _ from hrun] at happly
        exact happly
      obtain ⟨hdone, hworld, hresult⟩ := writeStage_of_commit hcommit herror
      rw [show (replied host prompter changes w).changes = changes from rfl] at hchanges
      rw [hbefore, show (replied host prompter changes w).changes = changes from rfl, hrun, hhead,
        List.head?_cons, ← hhead] at hdone hworld hresult
      rw [show applyChanges ws w.files (replied host prompter changes w).changes = _ from hrun]
        at hfiles
      have hrepositories : ({ (replied host prompter changes w).world with files := gs }
          : World).repositories = w.repositories := hkeepsRepositories _ w
      rw [hchanges] at hplace htracked
      rw [hfiles] at htracked
      obtain ⟨wt, commit, hopen, hopen', hreleased, hrelease⟩ :=
        released_of_commitRelease hfs hnodes hplanned hrewrites hrepositories
          (releaseCheck_eq_ok_iff.1 hcheck hcommit) hplace htracked hdone
      rw [← hworld] at hreleased
      rw [hchanges, hresult, hrelease, hfiles]
      refine ⟨wt, root, commit, hopen, hopen', by rw [hhead]; rfl, hmember, hreleased, ?_, rfl, ?_⟩
      · intro c hc
        exact hrewrites.queryVersion hc (hplanned c hc)
      · intro hgit hpatterns
        have hignores : ignorePatterns gs wt.top = ignorePatterns w.files wt.top := by
          refine hrewrites.ignorePatterns_eq hnodes fun c hc loc hloc => hpatterns c hc loc ?_
          rw [(hplanned c hc).path, hloc]
        rw [← hfiles]
        exact hreleased.changedPaths_eq_nil hgit (by rw [hfiles, hignores])
    · -- a write that failed is an error of the bump
      rw [show applyChanges ws w.files (replied host prompter changes w).changes = _ from hrun]
        at hnone
      cases hnone herror

/-! ## Releases of small worktrees -/

/-- The check passes if what is staged is allowed, and everything else that is found is allowed, or
ignored and not known to the index. -/
theorem checkClean_of_differences {host : Host} {w : World} {root : Text}
    {allowed relatives : List Text} {wt : Worktree}
    (hopen : openWorktree host w.files root = .ok wt)
    (hpaths : relativePaths wt host.env w.files allowed = .ok relatives)
    (hstatus : wt.statusError? w.files (w.repository wt.gitDir).index = none)
    (hstaged : ∀ path ∈ Snapshot.differences (w.repository wt.gitDir).headTree
      (w.repository wt.gitDir).index, path ∈ relatives)
    (hfound : ∀ path ∈ Snapshot.differences (w.repository wt.gitDir).index.seen
        (wt.snapshot w.files),
      path ∈ relatives
        ∨ (w.repository wt.gitDir).index.get? path = none ∧ wt.ignores w.files path = true) :
    checkClean host w root allowed = .ok () := by
  refine checkClean_eq_ok_iff.2 ⟨wt, relatives, hopen, hpaths, hstatus, fun path hpath => ?_⟩
  rw [Worktree.mem_changedPaths_iff] at hpath
  rcases hpath with hne | ⟨hne, hnotIgnored⟩
  · exact hstaged path (Snapshot.mem_differences_iff.2 hne)
  · rw [← Snapshot.get?_seen] at hne
    rcases hfound path (Snapshot.mem_differences_iff.2 hne) with hallowed | ⟨hnone, hignored⟩
    · exact hallowed
    · rw [hnotIgnored hnone] at hignored
      cases hignored

/-- The worktree at the root. -/
def rootWorktree : Worktree := ⟨[ascii ".git"], ascii "/", []⟩

/-- A world with one repository at the root, in which one snapshot was committed and another one
staged. -/
def stagedWorld (files : FileSystem) (tree index : Snapshot) : World where
  files := files
  repositories := [([ascii ".git"], ⟨[⟨ascii "initial", ⟨[], []⟩, tree⟩], [], index⟩)]
  input := .ofText []

/-- The same where nothing else was staged. -/
def committedWorld (files : FileSystem) (tree : Snapshot) : World := stagedWorld files tree tree

/-- An accepted bump with a commit in the worktree at the root.  Its plan is known, and its check passes:
what is staged is planned, and so is everything else that is found, unless it is ignored. -/
structure CheckedRelease where
  host : Host
  ws : Workspace
  kind : Kind
  tag : Bool
  files : FileSystem
  /-- What was committed last. -/
  tree : Snapshot
  index : Snapshot
  changes : List Change
  /-- The planned manifests as seen from the top of the worktree. -/
  relatives : List Text
  planned : plan ws files kind = .ok changes
  opened : openWorktree host files ws.dir = .ok rootWorktree
  resolved : relativePaths rootWorktree host.env files (changes.map Change.path) = .ok relatives
  readable : rootWorktree.statusError? files index = none
  staged : ∀ path ∈ Snapshot.differences tree index, path ∈ relatives
  found : ∀ path ∈ Snapshot.differences index.seen (rootWorktree.snapshot files),
    path ∈ relatives ∨ index.get? path = none ∧ rootWorktree.ignores files path = true

namespace CheckedRelease

/-- What writing and recording the plan leads to. -/
def written (r : CheckedRelease) : BumpOutcome :=
  writeStage r.host r.ws ⟨false, true, r.tag⟩
    (replied r.host (.static true) r.changes (stagedWorld r.files r.tree r.index))

/-- Behind the check the plan is written and recorded. -/
theorem bump_eq (r : CheckedRelease) :
    bump r.host r.ws (.static true) ⟨false, true, r.tag⟩ r.kind (stagedWorld r.files r.tree r.index)
      = r.written := by
  refine bump_of_accepted r.planned rfl (releaseCheck_eq_ok_iff.2 fun _ => ?_) rfl
  exact checkClean_of_differences r.opened r.resolved r.readable r.staged r.found

theorem written_confirmed (r : CheckedRelease) : r.written.confirmed = true :=
  (writeStage_fields r.host r.ws _ _).1

theorem written_changes (r : CheckedRelease) : r.written.changes = r.changes :=
  (writeStage_fields r.host r.ws _ _).2.2.1

end CheckedRelease

/-- The sample files in a worktree. -/
def releaseFiles : FileSystem where
  nodes := (sampleFiles Mode.newFile).nodes ++ gitNodes
  current := []

/-- What was committed of them: the member's manifest has been edited since. -/
def releaseTree : Snapshot :=
  [(ascii "Cargo.toml", .file false (ascii
      "[package]\nversion = \"1.2.3\"\n[workspace]\nmembers = [\"./\", \"a\", \"b\"]\n")),
    (ascii "a/Cargo.toml", .file false (ascii "[package]\nversion = \"0.9.8\"\n")),
    (ascii "b", .link (ascii "a"))]

/-- The release of the sample files. -/
def CheckedRelease.sample : CheckedRelease where
  host := sampleHost
  ws := sampleWorkspace
  kind := .minor
  tag := true
  files := releaseFiles
  tree := releaseTree
  index := releaseTree
  changes := sampleChanges
  relatives := ["Cargo.toml", "Cargo.toml", "a/Cargo.toml", "a/Cargo.toml"].map ascii
  planned := by decide +kernel
  opened := by decide +kernel
  resolved := by decide +kernel
  readable := by decide +kernel
  staged := by decide +kernel
  found := by decide +kernel

/-- A release of the sample files, where each manifest is reached twice and one was edited before. -/
theorem bump_committed_aliases :
    let o := bump sampleHost sampleWorkspace (.static true) ⟨false, true, true⟩ .minor
      (committedWorld releaseFiles releaseTree)
    o.confirmed = true ∧ o.error? = none
      ∧ ∃ commit, (o.world.repository [ascii ".git"]).commits
          = [⟨ascii "initial", ⟨[], []⟩, releaseTree⟩, commit]
        ∧ commit.message = ascii "1.3.0"
        ∧ (o.world.repository [ascii ".git"]).tags = [(ascii "v1.3.0", 1)]
        ∧ rootWorktree.changedPaths o.world.files (o.world.repository [ascii ".git"]) = [] := by
  have hrun : bump sampleHost sampleWorkspace (.static true) ⟨false, true, true⟩ .minor
      (committedWorld releaseFiles releaseTree) = CheckedRelease.sample.written :=
    CheckedRelease.sample.bump_eq
  have hproper : releaseFiles.Proper :=
    FileSystem.proper_of_nodes (by decide +kernel) (by decide +kernel) (by decide +kernel)
  have hopen : openWorktree sampleHost releaseFiles sampleWorkspace.dir = .ok rootWorktree :=
    CheckedRelease.sample.opened
  have hconfirmed := CheckedRelease.sample.written_confirmed
  have hchanges : CheckedRelease.sample.written.changes = sampleChanges :=
    CheckedRelease.sample.written_changes
  have herror : CheckedRelease.sample.written.error? = none := by decide +kernel
  rw [← hrun] at hconfirmed hchanges herror
  have hplace : ∀ path, InPlace sampleHost.env releaseFiles path :=
    inPlace_of_workingDirectory (FileSystem.workingDirectory_of_unset rfl _)
  -- everything that was committed is in the index
  have htracked : ∀ fs path, StaysTracked rootWorktree fs
      ((committedWorld releaseFiles releaseTree).repository rootWorktree.gitDir) path :=
    fun fs path hhead hnone => absurd hnone hhead
  obtain ⟨wt, root, commit, hwt, -, hroot, -, hreleased, -, -, hclean⟩ :=
    bump_committed hproper (Prompter.keepsFiles_static true) (fun _ _ => rfl) rfl hconfirmed herror
      (fun c _ => hplace c.path) fun wt hwt c _ path _ => by
        obtain rfl := Except.ok.inj (hwt.symm.trans hopen)
        exact htracked _ path
  generalize bump sampleHost sampleWorkspace (.static true) ⟨false, true, true⟩ .minor
    (committedWorld releaseFiles releaseTree) = o at hconfirmed hchanges herror hroot hreleased hclean ⊢
  obtain rfl := Except.ok.inj (hwt.symm.trans hopen)
  rw [hchanges] at hroot hclean
  obtain rfl := Option.some.inj hroot
  refine ⟨hconfirmed, herror, commit, hreleased.commits, hreleased.message, hreleased.tags, ?_⟩
  apply hclean
  · intro c hc path hpath
    obtain ⟨relative, hmem, heq⟩ := exists_of_forall₂_left
      (forall₂_relativePaths CheckedRelease.sample.resolved) (List.mem_map_of_mem hc)
    obtain rfl := Except.ok.inj (heq.symm.trans hpath)
    exact (by decide +kernel : ∀ path ∈ [ascii "Cargo.toml", ascii "Cargo.toml",
      ascii "a/Cargo.toml", ascii "a/Cargo.toml"], gitName ∉ Text.splitOn slash path) _ hmem
  · intro c _ loc _
    exact not_isPatternFile (by decide +kernel) _ loc

/-- The text of a manifest. -/
def manifestText (version members : Text) : Text :=
  ascii "[package]\nversion = \"" ++ version ++ ascii "\"\n[workspace]\nmembers = [" ++ members
    ++ ascii "]\n"

/-- A worktree whose manifest is its file of ignore patterns as well. -/
def patternFiles (version : Text) : FileSystem where
  nodes :=
    [([], .directory Mode.newDirectory),
      ([ascii ".gitignore"], .file Mode.newFile (manifestText version [])),
      ([ascii "version = \"1.0.0\""], .file Mode.newFile (ascii "x"))] ++ gitNodes
  current := []

/-- A worktree with a manifest among the repository's own data. -/
def hiddenFiles (version : Text) : FileSystem where
  nodes :=
    [([], .directory Mode.newDirectory),
      ([ascii "Cargo.toml"], .file Mode.newFile (manifestText version (ascii "\".git\""))),
      ([ascii ".git", ascii "Cargo.toml"], .file Mode.newFile (manifestText version []))] ++ gitNodes
  current := []

/-- A worktree that is entered through a link to one of its directories. -/
def detourFiles (version : Text) : FileSystem where
  nodes :=
    [([], .directory Mode.newDirectory),
      ([ascii "Cargo.toml"], .file Mode.newFile (manifestText (ascii "7.0.0") [])),
      ([ascii "a"], .directory Mode.newDirectory),
      ([ascii "a", ascii "Cargo.toml"], .file Mode.newFile (manifestText version [])),
      ([ascii "a", ascii "b"], .directory Mode.newDirectory),
      ([ascii "link"], .link (ascii "a/b"))] ++ gitNodes
  current := [ascii "a", ascii "b"]

/-- A worktree whose manifest is ignored. -/
def droppedFiles (version : Text) : FileSystem where
  nodes :=
    [([], .directory Mode.newDirectory),
      ([ascii ".gitignore"], .file Mode.newFile (ascii "Cargo.toml\n")),
      ([ascii "Cargo.toml"], .file Mode.newFile (manifestText version []))] ++ gitNodes
  current := []

/-- A host whose working directory goes by the name of a link. -/
def detourHost : Host := { sampleHost with env := [(ascii "PWD", ascii "/link")] }

/-- What was committed in `detourFiles`: the manifest at the top has been edited since. -/
def detourTree : Snapshot :=
  [(ascii "Cargo.toml", .file false (manifestText (ascii "6.0.0") [])),
    (ascii "a/Cargo.toml", .file false (manifestText (ascii "1.0.0") [])),
    (ascii "link", .link (ascii "a/b"))]

/-- What is staged in `droppedFiles`; the manifest was committed nevertheless. -/
def droppedIndex : Snapshot := [(ascii ".gitignore", .file false (ascii "Cargo.toml\n"))]

/-- The world of `droppedFiles`. -/
def droppedWorld (version : Text) : World :=
  stagedWorld (droppedFiles version)
    ((ascii "Cargo.toml", .file false (manifestText (ascii "1.0.0") [])) :: droppedIndex) droppedIndex

/-- Without directories below, only the patterns at the top count. -/
theorem ignorePatterns_of_flat {fs : FileSystem} {top : Location}
    (h : ∀ entry ∈ fs.nodes, ∀ name ∈ entry.1.getLast?, entry.1.dropLast = top →
      fs.isDirectoryAt (top ++ [name]) = true → name = gitName) :
    ignorePatterns fs top
      = patternsIn fs top [] (ascii ".git/info/exclude") ++ patternsIn fs top [] (ascii ".gitignore") := by
  have hflat : directoryNames fs top = [] := by
    refine List.filter_eq_nil_iff.2 fun name hname => ?_
    rw [FileSystem.names, Text.sort, List.mem_mergeSort, Text.distinct, List.mem_eraseDups] at hname
    obtain ⟨⟨loc, node⟩, hentry, hlast⟩ := List.mem_filterMap.1 hname
    dsimp only at hlast
    split at hlast
    · next hparent =>
      split
      · next mode hnode =>
        rw [h _ hentry name hlast hparent (FileSystem.isDirectoryAt_iff.2 ⟨mode, hnode⟩)]
        decide
      · decide
    · cases hlast
  rw [ignorePatterns, patternsBelow, List.append_nil, hflat, List.foldl_nil]

/-- The release of `patternFiles`, with only the manifest under record. -/
def patternRelease : BumpOutcome :=
  bump sampleHost ⟨[], ascii ".gitignore"⟩ (.static true) ⟨false, true, false⟩ .patch
    (committedWorld (patternFiles (ascii "1.0.0"))
      [(ascii ".gitignore", .file false (manifestText (ascii "1.0.0") []))])

/-- The release of `hiddenFiles`. -/
def hiddenRelease : BumpOutcome :=
  bump sampleHost sampleWorkspace (.static true) ⟨false, true, false⟩ .patch
    (committedWorld (hiddenFiles (ascii "1.0.0"))
      [(ascii "Cargo.toml", .file false (manifestText (ascii "1.0.0") (ascii "\".git\"")))])

/-- The release of `detourFiles`, of the directory above the one that was entered. -/
def detourRelease : BumpOutcome :=
  bump detourHost ⟨Path.up, []⟩ (.static true) ⟨false, true, false⟩ .patch
    (committedWorld (detourFiles (ascii "1.0.0")) detourTree)

/-- The release of `droppedFiles`. -/
def droppedRelease : BumpOutcome :=
  bump sampleHost sampleWorkspace (.static true) ⟨false, true, false⟩ .patch
    (droppedWorld (ascii "1.0.0"))

theorem ignores_patternFiles :
    rootWorktree.ignores (patternFiles (ascii "1.0.0")) (ascii "version = \"1.0.0\"") = true
      ∧ rootWorktree.ignores (patternFiles (ascii "1.0.1")) (ascii "version = \"1.0.0\"") = false := by
  constructor
  · rw [Worktree.ignores, ignorePatterns_of_flat (by decide +kernel)]
    decide +kernel
  · rw [Worktree.ignores, ignorePatterns_of_flat (by decide +kernel)]
    decide +kernel

theorem ignores_droppedFiles {version : Text} (h : version = ascii "1.0.0" ∨ version = ascii "1.0.1") :
    rootWorktree.ignores (droppedFiles version) (ascii "Cargo.toml") = true := by
  rcases h with rfl | rfl
  · rw [Worktree.ignores, ignorePatterns_of_flat (by decide +kernel)]
    decide +kernel
  · rw [Worktree.ignores, ignorePatterns_of_flat (by decide +kernel)]
    decide +kernel

/-- The release of `patternFiles`: the one file that is not recorded is ignored. -/
def CheckedRelease.pattern : CheckedRelease where
  host := sampleHost
  ws := ⟨[], ascii ".gitignore"⟩
  kind := .patch
  tag := false
  files := patternFiles (ascii "1.0.0")
  tree := [(ascii ".gitignore", .file false (manifestText (ascii "1.0.0") []))]
  index := [(ascii ".gitignore", .file false (manifestText (ascii "1.0.0") []))]
  changes := [⟨ascii ".", ascii ".gitignore", [], ascii "1.0.0", ascii "1.0.1", 0⟩]
  relatives := [ascii ".gitignore"]
  planned := by decide +kernel
  opened := by decide +kernel
  resolved := by decide +kernel
  readable := by decide +kernel
  staged := by decide +kernel
  found := by
    have hfound : ∀ path ∈ Snapshot.differences
        (Snapshot.seen [(ascii ".gitignore", .file false (manifestText (ascii "1.0.0") []))])
        (rootWorktree.snapshot (patternFiles (ascii "1.0.0"))), path = ascii "version = \"1.0.0\"" := by
      decide +kernel
    intro path hpath
    rw [hfound path hpath]
    exact Or.inr ⟨by decide +kernel, ignores_patternFiles.1⟩

/-- The release of `hiddenFiles`. -/
def CheckedRelease.hidden : CheckedRelease where
  host := sampleHost
  ws := sampleWorkspace
  kind := .patch
  tag := false
  files := hiddenFiles (ascii "1.0.0")
  tree := [(ascii "Cargo.toml", .file false (manifestText (ascii "1.0.0") (ascii "\".git\"")))]
  index := [(ascii "Cargo.toml", .file false (manifestText (ascii "1.0.0") (ascii "\".git\"")))]
  changes :=
    [⟨ascii ".", ascii "Cargo.toml", [], ascii "1.0.0", ascii "1.0.1", 0⟩,
      ⟨ascii ".git", ascii ".git/Cargo.toml", [], ascii "1.0.0", ascii "1.0.1", 0⟩]
  relatives := ["Cargo.toml", ".git/Cargo.toml"].map ascii
  planned := by decide +kernel
  opened := by decide +kernel
  resolved := by decide +kernel
  readable := by decide +kernel
  staged := by decide +kernel
  found := by decide +kernel

/-- The release of `detourFiles`: the manifest that is found to be changed is not the one that is
written. -/
def CheckedRelease.detour : CheckedRelease where
  host := detourHost
  ws := ⟨Path.up, []⟩
  kind := .patch
  tag := false
  files := detourFiles (ascii "1.0.0")
  tree := detourTree
  index := detourTree
  changes := [⟨ascii ".", ascii "../Cargo.toml", [], ascii "1.0.0", ascii "1.0.1", 0⟩]
  relatives := [ascii "Cargo.toml"]
  planned := by decide +kernel
  opened := by decide +kernel
  resolved := by decide +kernel
  readable := by decide +kernel
  staged := by decide +kernel
  found := by decide +kernel

/-- The release of `droppedFiles`: what is staged is that the manifest is gone. -/
def CheckedRelease.dropped : CheckedRelease where
  host := sampleHost
  ws := sampleWorkspace
  kind := .patch
  tag := false
  files := droppedFiles (ascii "1.0.0")
  tree := (ascii "Cargo.toml", .file false (manifestText (ascii "1.0.0") [])) :: droppedIndex
  index := droppedIndex
  changes := [⟨ascii ".", ascii "Cargo.toml", [], ascii "1.0.0", ascii "1.0.1", 0⟩]
  relatives := [ascii "Cargo.toml"]
  planned := by decide +kernel
  opened := by decide +kernel
  resolved := by decide +kernel
  readable := by decide +kernel
  staged := by decide +kernel
  found := by decide +kernel

/-- Nothing is done about a manifest that is out of the index and ignored. -/
theorem stage_dropped :
    stage rootWorktree (droppedFiles (ascii "1.0.1"))
        ((droppedWorld (ascii "1.0.1")).repository rootWorktree.gitDir) (ascii "Cargo.toml")
      = .ok ((droppedWorld (ascii "1.0.1")).repository rootWorktree.gitDir) := by
  refine stage_of_isOnlyStaged (by decide +kernel) (by decide +kernel) (fun mode => ?_) ?_
  · have hlstat : (droppedFiles (ascii "1.0.1")).lstat (below rootWorktree.root (ascii "Cargo.toml"))
        = .ok (.file Mode.newFile (manifestText (ascii "1.0.1") [])) := by
      decide +kernel
    rw [hlstat]
    exact fun h => by cases h
  · rw [isOnlyStaged, Bool.and_eq_true, Bool.not_eq_true', ← Bool.not_eq_true,
      List.contains_iff_mem, Worktree.mem_unstaged_iff, ignores_droppedFiles (Or.inr rfl)]
    exact ⟨by decide +kernel, fun h => by cases h.2 rfl⟩

/-- The release commits the index as it is. -/
theorem commitRelease_dropped :
    let o := commitRelease sampleHost (droppedWorld (ascii "1.0.1")) Path.here [ascii "Cargo.toml"]
      (ascii "1.0.1") false
    o.error? = none ∧ o.world.files = droppedFiles (ascii "1.0.1")
      ∧ (o.world.repository rootWorktree.gitDir).headTree = droppedIndex := by
  have hprepared : ∃ committed, Prepared sampleHost (droppedWorld (ascii "1.0.1")) Path.here
      [ascii "Cargo.toml"] (ascii "1.0.1") rootWorktree
      ((droppedWorld (ascii "1.0.1")).repository rootWorktree.gitDir) committed := by
    refine ⟨_, by decide +kernel, ⟨[ascii "Cargo.toml"], by decide +kernel, ?_⟩, by decide +kernel,
      rfl⟩
    rw [stageAll, show (droppedWorld (ascii "1.0.1")).files = droppedFiles (ascii "1.0.1") from rfl,
      stage_dropped]
    rfl
  obtain ⟨committed, hprepared⟩ := hprepared
  dsimp only
  rw [commitRelease_of_prepared hprepared (fun h => by cases h), tagRelease, if_neg (by decide)]
  refine ⟨rfl, rfl, ?_⟩
  rw [World.repository_setRepository, if_pos rfl, commit_eq_ok hprepared.commit,
    Repository.headTree, List.getLast?_concat]
  rfl

theorem written_dropped :
    let o := CheckedRelease.dropped.written
    o.error? = none ∧ o.world.files = droppedFiles (ascii "1.0.1")
      ∧ (o.world.repository rootWorktree.gitDir).headTree = droppedIndex := by
  intro o
  have happlied : (applyChanges sampleWorkspace (droppedFiles (ascii "1.0.0"))
        CheckedRelease.dropped.changes).error? = none
      ∧ (applyChanges sampleWorkspace (droppedFiles (ascii "1.0.0"))
        CheckedRelease.dropped.changes).files = droppedFiles (ascii "1.0.1") := by
    decide +kernel
  obtain ⟨hnone, hfiles, htree⟩ := commitRelease_dropped
  obtain ⟨herror, hworld⟩ := writeStage_of_release sampleHost sampleWorkspace ⟨false, true, false⟩
    (replied sampleHost (.static true) CheckedRelease.dropped.changes (droppedWorld (ascii "1.0.0")))
    rfl happlied.1 happlied.2 hnone
  rw [show o.world = _ from hworld]
  exact ⟨herror, hfiles, htree⟩

/-- **A release can leave a status that is not clean, and a manifest unrecorded.**  In the first
worktree the declaring line of the manifest was the pattern that left a file out; in the second a
manifest lies where no status looks.  In the third the manifest that is committed is not the one that
was written, but the one that its path leads to by the name of the working directory.  In the fourth
the manifest was taken out of the index and is ignored, and its deletion is what is committed. -/
theorem bump_committed_unclean :
    ((patternFiles (ascii "1.0.0")).Proper ∧ patternRelease.confirmed = true
      ∧ patternRelease.error? = none
      ∧ openWorktree sampleHost patternRelease.world.files Path.here = .ok rootWorktree
      ∧ ascii "version = \"1.0.0\"" ∈ rootWorktree.changedPaths patternRelease.world.files
          (patternRelease.world.repository rootWorktree.gitDir))
    ∧ ((hiddenFiles (ascii "1.0.0")).Proper ∧ hiddenRelease.confirmed = true
      ∧ hiddenRelease.error? = none
      ∧ openWorktree sampleHost hiddenRelease.world.files Path.here = .ok rootWorktree
      ∧ ascii ".git/Cargo.toml" ∈ rootWorktree.changedPaths hiddenRelease.world.files
          (hiddenRelease.world.repository rootWorktree.gitDir))
    ∧ ((detourFiles (ascii "1.0.0")).Proper ∧ detourRelease.confirmed = true
      ∧ detourRelease.error? = none
      ∧ openWorktree detourHost detourRelease.world.files Path.up = .ok rootWorktree
      ∧ detourRelease.changes.map Change.path = [ascii "../Cargo.toml"]
      ∧ detourRelease.world.files = detourFiles (ascii "1.0.1")
      ∧ (detourRelease.world.repository rootWorktree.gitDir).headTree
        = [(ascii "Cargo.toml", .file false (manifestText (ascii "7.0.0") [])),
            (ascii "a/Cargo.toml", .file false (manifestText (ascii "1.0.0") [])),
            (ascii "link", .link (ascii "a/b"))])
    ∧ (droppedFiles (ascii "1.0.0")).Proper ∧ droppedRelease.confirmed = true
      ∧ droppedRelease.error? = none
      ∧ openWorktree sampleHost droppedRelease.world.files Path.here = .ok rootWorktree
      ∧ droppedRelease.changes.map Change.path = [ascii "Cargo.toml"]
      ∧ ((droppedWorld (ascii "1.0.0")).repository rootWorktree.gitDir).headTree.get?
          (ascii "Cargo.toml") = some (.file false (manifestText (ascii "1.0.0") []))
      ∧ (droppedRelease.world.repository rootWorktree.gitDir).headTree.get? (ascii "Cargo.toml")
        = none := by
  have hpattern : patternRelease = CheckedRelease.pattern.written := CheckedRelease.pattern.bump_eq
  have hhidden : hiddenRelease = CheckedRelease.hidden.written := CheckedRelease.hidden.bump_eq
  have hdetour : detourRelease = CheckedRelease.detour.written := CheckedRelease.detour.bump_eq
  have hdropped : droppedRelease = CheckedRelease.dropped.written := CheckedRelease.dropped.bump_eq
  rw [hpattern, hhidden, hdetour, hdropped]
  refine ⟨⟨?_, CheckedRelease.pattern.written_confirmed, by decide +kernel, by decide +kernel, ?_⟩,
    ⟨?_, CheckedRelease.hidden.written_confirmed, by decide +kernel, by decide +kernel, ?_⟩,
    ⟨?_, CheckedRelease.detour.written_confirmed, by decide +kernel, by decide +kernel, ?_,
      by decide +kernel, by decide +kernel⟩, ?_, ?_⟩
  · exact FileSystem.proper_of_nodes (by decide +kernel) (by decide +kernel) (by decide +kernel)
  · refine Worktree.mem_changedPaths_iff.2 (Or.inr ⟨by decide +kernel, fun _ => ?_⟩)
    have hfiles : CheckedRelease.pattern.written.world.files = patternFiles (ascii "1.0.1") := by
      decide +kernel
    rw [hfiles]
    exact ignores_patternFiles.2
  · exact FileSystem.proper_of_nodes (by decide +kernel) (by decide +kernel) (by decide +kernel)
  · refine Worktree.mem_changedPaths_iff.2 (Or.inr ⟨by decide +kernel, fun hnone => ?_⟩)
    exact absurd hnone (by decide +kernel)
  · exact FileSystem.proper_of_nodes (by decide +kernel) (by decide +kernel) (by decide +kernel)
  · rw [CheckedRelease.written_changes]
    rfl
  · exact FileSystem.proper_of_nodes (by decide +kernel) (by decide +kernel) (by decide +kernel)
  · obtain ⟨herror, hfiles, htree⟩ := written_dropped
    refine ⟨CheckedRelease.dropped.written_confirmed, herror, ?_, ?_, by decide +kernel, ?_⟩
    · rw [hfiles]
      decide +kernel
    · rw [CheckedRelease.written_changes]
      rfl
    · rw [htree]
      decide +kernel

end CrateBump
