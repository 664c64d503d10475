/-
# The history after a release

A release checks the name of its tag, opens the worktree, stages, commits and tags.  Every step can
fail, and only the last two record something: a failure up to the commit leaves the history of every
repository as it was, while a tag that is refused comes too late for the commit that it was to mark.

Main statements: these are all the ways a release ends (`releaseEnds_commitRelease`), and what a failed
release leaves of the history (`commitRelease_failed_history`).
-/
import CrateBump.Git.Release
import Mathlib.Tactic.Common

namespace CrateBump

open Git

/-! ## Repositories of a world -/

theorem World.repository_setRepository (w : World) (gitDir g : Location) (r : Repository) :
    (w.setRepository gitDir r).repository g = if g = gitDir then r else w.repository g := by
  by_cases hg : g = gitDir
  · rw [if_pos hg, hg]
    simp [World.repository, World.setRepository]
  · rw [if_neg hg]
    have hothers := lookup_filter_key (· != gitDir) w.repositories g
    rw [if_pos (by simpa using hg)] at hothers
    rw [World.repository, World.setRepository, List.lookup_cons, beq_false_of_ne hg, hothers,
      World.repository]

/-! ## Steps that record nothing -/

/-- Two repositories have the same commits and the same tags, whatever is staged. -/
structure SameHistory (r r' : Repository) : Prop where
  commits : r'.commits = r.commits
  tags : r'.tags = r.tags

theorem SameHistory.refl (r : Repository) : SameHistory r r := ⟨rfl, rfl⟩

theorem SameHistory.trans {r s t : Repository} (h : SameHistory r s) (h' : SameHistory s t) :
    SameHistory r t :=
  ⟨h'.commits.trans h.commits, h'.tags.trans h.tags⟩

/-- A repository is exchanged for one with the same history. -/
theorem SameHistory.setRepository {w : World} {gitDir : Location} {r : Repository}
    (h : SameHistory (w.repository gitDir) r) (dir : Location) :
    SameHistory (w.repository dir) ((w.setRepository gitDir r).repository dir) := by
  rw [World.repository_setRepository]
  split
  · next hdir => rw [hdir]; exact h
  · exact .refl _

theorem sameHistory_stage {wt : Worktree} {fs : FileSystem} {r r' : Repository} {path : Text}
    (h : stage wt fs r path = .ok r') : SameHistory r r' := by
  unfold stage at h
  cases hindex : stagedIndex wt fs r path with
  | error e =>
    rw [hindex] at h
    cases h
  | ok index =>
    rw [hindex] at h
    obtain rfl := Except.ok.inj h
    exact ⟨rfl, rfl⟩

/-- Staging records nothing, however far it gets. -/
theorem sameHistory_stageAll (wt : Worktree) (fs : FileSystem) (r : Repository) (paths : List Text) :
    SameHistory r (stageAll wt fs r paths).1 := by
  induction paths generalizing r with
  | nil => exact .refl r
  | cons path rest ih =>
    rw [stageAll]
    split
    · exact .refl r
    · next r' hstage => exact (sameHistory_stage hstage).trans (ih r')

theorem commit_eq_ok {r r' : Repository} {message : Text} {author : Identity}
    (h : r.commit message author = .ok r') :
    r' = { r with commits := r.commits ++ [⟨message, author.recorded, r.index⟩] } := by
  unfold Repository.commit at h
  split at h
  · cases h
  · exact (Except.ok.inj h).symm

/-- A tag can be refused for its name: because it cannot be stored, or because there is one. -/
def TagRefused (r : Repository) (name : Text) : Prop :=
  Text.endsWith (ascii ".lock") name = true ∨ (r.tags.lookup name).isSome = true

theorem tagHead_cases (r : Repository) (name : Text) :
    (TagRefused r name ∧ ∃ e, r.tagHead name = .error e)
      ∨ (¬ TagRefused r name ∧ r.tags.lookup name = none
        ∧ r.tagHead name = .ok { r with tags := r.tags ++ [(name, r.commits.length - 1)] }) := by
  unfold Repository.tagHead
  by_cases hlock : Text.endsWith (ascii ".lock") name = true
  · rw [if_pos hlock]
    exact .inl ⟨.inl hlock, _, rfl⟩
  rw [if_neg hlock]
  by_cases hthere : (r.tags.lookup name).isSome = true
  · rw [if_pos hthere]
    exact .inl ⟨.inr hthere, _, rfl⟩
  rw [if_neg hthere]
  refine .inr ⟨?_, Option.not_isSome_iff_eq_none.1 hthere, rfl⟩
  rintro (h | h)
  · exact hlock h
  · exact hthere h

/-! ## The ways a release ends -/

/-- A release that got as far as its commit. -/
structure Prepared (host : Host) (w : World) (root : Text) (paths : List Text) (version : Text)
    (wt : Worktree) (staged committed : Repository) : Prop where
  opened : openWorktree host w.files root = .ok wt
  staging : ∃ relatives, relativePaths wt host.env w.files paths = .ok relatives
    ∧ stageAll wt w.files (w.repository wt.gitDir) relatives = (staged, none)
  indexed : indexError? w.files wt.gitDir = none
  commit : staged.commit version (author host w.files wt.gitDir) = .ok committed

/-- How a release ends, and with which outcome. -/
inductive ReleaseEnds (host : Host) (w : World) (root : Text) (paths : List Text) (version : Text)
    (tag : Bool) : ReleaseOutcome → Prop
  | invalidTag (htag : tag = true) (hinvalid : Semver.isValid (tagFor version) = false) :
      ReleaseEnds host w root paths version tag
        ⟨⟨[], []⟩, some (.invalidTag (tagFor version)), w⟩
  | unopened {e : OpenError} (hopen : openWorktree host w.files root = .error e) :
      ReleaseEnds host w root paths version tag ⟨⟨[], []⟩, some (.opening root e), w⟩
  | unresolved {wt : Worktree} (hopen : openWorktree host w.files root = .ok wt)
      {e : ReleaseError} (hpaths : relativePaths wt host.env w.files paths = .error e) :
      ReleaseEnds host w root paths version tag ⟨⟨[], []⟩, some e, w⟩
  | uncommitted {wt : Worktree} (hopen : openWorktree host w.files root = .ok wt) {r : Repository}
      (hhistory : SameHistory (w.repository wt.gitDir) r) {e : ReleaseError}
      (herror : ∀ reason, e ≠ .tagging reason) :
      ReleaseEnds host w root paths version tag ⟨⟨[], []⟩, some e, w.setRepository wt.gitDir r⟩
  | untagged {wt : Worktree} {staged committed : Repository}
      (hprepared : Prepared host w root paths version wt staged committed) (htag : tag = false) :
      ReleaseEnds host w root paths version tag
        ⟨⟨host.commitName (committed.commits.length - 1), []⟩, none,
          w.setRepository wt.gitDir committed⟩
  | tagged {wt : Worktree} {staged committed tagged : Repository}
      (hprepared : Prepared host w root paths version wt staged committed) (htag : tag = true)
      (hvalid : Semver.isValid (tagFor version) = true)
      (htagged : committed.tagHead (tagFor version) = .ok tagged) :
      ReleaseEnds host w root paths version tag
        ⟨⟨host.commitName (committed.commits.length - 1), tagFor version⟩, none,
          w.setRepository wt.gitDir tagged⟩
  | tagRefused {wt : Worktree} {staged committed : Repository}
      (hprepared : Prepared host w root paths version wt staged committed) (htag : tag = true)
      (hvalid : Semver.isValid (tagFor version) = true) {e : Repository.TagError}
      (hrefused : committed.tagHead (tagFor version) = .error e) :
      ReleaseEnds host w root paths version tag
        ⟨⟨host.commitName (committed.commits.length - 1), []⟩, some (.tagging e),
          w.setRepository wt.gitDir committed⟩

theorem releaseEnds_commitRelease (host : Host) (w : World) (root : Text) (paths : List Text)
    (version : Text) (tag : Bool) :
    ReleaseEnds host w root paths version tag (commitRelease host w root paths version tag) := by
  unfold commitRelease
  dsimp only
  split
  · next hinvalid =>
    rw [Bool.and_eq_true, Bool.not_eq_true'] at hinvalid
    exact .invalidTag hinvalid.1 hinvalid.2
  next hvalid =>
  split
  · next e hopen => exact .unopened hopen
  next wt hopen =>
  split
  · next e hpaths => exact .unresolved hopen hpaths
  next relatives hpaths =>
  have hhistory := sameHistory_stageAll wt w.files (w.repository wt.gitDir) relatives
  split
  · next r path e hstage =>
    rw [hstage] at hhistory
    exact .uncommitted hopen hhistory fun _ h => by cases h
  next staged hstage =>
  rw [hstage] at hhistory
  split
  · exact .uncommitted hopen hhistory fun _ h => by cases h
  next hindex =>
  split
  · exact .uncommitted hopen hhistory fun _ h => by cases h
  next committed hcommit =>
  have hprepared : Prepared host w root paths version wt staged committed :=
    ⟨hopen, ⟨relatives, hpaths, hstage⟩, hindex, hcommit⟩
  unfold tagRelease
  cases tag with
  | false => exact .untagged hprepared rfl
  | true =>
    have hsemver : Semver.isValid (tagFor version) = true := by simpa using hvalid
    rw [if_pos rfl]
    split
    · next e hrefused => exact .tagRefused hprepared rfl hsemver hrefused
    · next tagged htagged => exact .tagged hprepared rfl hsemver htagged

/-- A release is recorded in a repository and changes nothing else of the world. -/
theorem commitRelease_world (host : Host) (w : World) (root : Text) (paths : List Text)
    (version : Text) (tag : Bool) :
    (commitRelease host w root paths version tag).world.files = w.files
      ∧ (commitRelease host w root paths version tag).world.input = w.input := by
  have hends := releaseEnds_commitRelease host w root paths version tag
  generalize commitRelease host w root paths version tag = o at hends ⊢
  cases hends <;> exact ⟨rfl, rfl⟩

/-! ## What a failed release leaves -/

section History

variable {host : Host} {w : World} {root : Text} {paths : List Text} {version : Text}

theorem Prepared.sameHistory {wt : Worktree} {staged committed : Repository}
    (h : Prepared host w root paths version wt staged committed) :
    SameHistory (w.repository wt.gitDir) staged := by
  obtain ⟨relatives, -, hstage⟩ := h.staging
  have hhistory := sameHistory_stageAll wt w.files (w.repository wt.gitDir) relatives
  rw [hstage] at hhistory
  exact hhistory

/-- The commit goes on top of the ones there were. -/
theorem Prepared.commits {wt : Worktree} {staged committed : Repository}
    (h : Prepared host w root paths version wt staged committed) :
    committed.commits = (w.repository wt.gitDir).commits
      ++ [⟨version, (author host w.files wt.gitDir).recorded, staged.index⟩] := by
  rw [commit_eq_ok h.commit, h.sameHistory.commits]

theorem Prepared.tags {wt : Worktree} {staged committed : Repository}
    (h : Prepared host w root paths version wt staged committed) :
    committed.tags = (w.repository wt.gitDir).tags := by
  rw [commit_eq_ok h.commit, h.sameHistory.tags]

/-- Behind the commit only the tag is left to do. -/
theorem commitRelease_of_prepared {tag : Bool} {wt : Worktree} {staged committed : Repository}
    (h : Prepared host w root paths version wt staged committed)
    (hvalid : tag = true → Semver.isValid (tagFor version) = true) :
    commitRelease host w root paths version tag
      = tagRelease w wt.gitDir committed (host.commitName (committed.commits.length - 1)) version
          tag := by
  have htag : (tag && !Semver.isValid (tagFor version)) = false := by
    cases tag with
    | false => rfl
    | true => rw [hvalid rfl]; rfl
  unfold commitRelease
  dsimp only
  obtain ⟨relatives, hpaths, hstage⟩ := h.staging
  rw [htag, if_neg Bool.false_ne_true, h.opened]
  dsimp only
  rw [hpaths]
  dsimp only
  rw [hstage]
  dsimp only
  rw [h.indexed]
  dsimp only
  rw [h.commit]

end History

/-- A release that gets as far as its commit in the worktree `wt` and is then refused its tag. -/
structure RefusedLate (host : Host) (w : World) (root : Text) (paths : List Text) (version : Text)
    (wt : Worktree) (commit : Commit) : Prop where
  valid : Semver.isValid (tagFor version) = true
  prepared : ∃ staged committed, Prepared host w root paths version wt staged committed
    ∧ commit = ⟨version, (author host w.files wt.gitDir).recorded, staged.index⟩
  refused : TagRefused (w.repository wt.gitDir) (tagFor version)

/-- A tag that is refused late leaves an error and the commit, which the result still names. -/
theorem RefusedLate.outcome {host : Host} {w : World} {root : Text} {paths : List Text}
    {version : Text} {wt : Worktree} {commit : Commit}
    (h : RefusedLate host w root paths version wt commit) :
    let o := commitRelease host w root paths version true
    (∃ reason, o.error? = some (.tagging reason))
      ∧ o.release = ⟨host.commitName (w.repository wt.gitDir).commits.length, []⟩
      ∧ ∀ dir, (o.world.repository dir).commits
        = (w.repository dir).commits ++ if dir = wt.gitDir then [commit] else [] := by
  obtain ⟨staged, committed, hprepared, rfl⟩ := h.prepared
  have hposition : committed.commits.length - 1 = (w.repository wt.gitDir).commits.length := by
    rw [hprepared.commits, List.length_append, List.length_singleton, Nat.add_sub_cancel]
  rw [commitRelease_of_prepared hprepared fun _ => h.valid, tagRelease, if_pos rfl]
  rcases tagHead_cases committed (tagFor version) with ⟨-, e, herror⟩ | ⟨hnot, -⟩
  · rw [herror]
    refine ⟨⟨e, rfl⟩, by rw [hposition], fun dir => ?_⟩
    dsimp only
    rw [World.repository_setRepository]
    by_cases hdir : dir = wt.gitDir
    · rw [if_pos hdir, if_pos hdir, hdir, hprepared.commits]
    · rw [if_neg hdir, if_neg hdir, List.append_nil]
  · have hrefused : TagRefused committed (tagFor version) := by
      rw [TagRefused, hprepared.tags]
      exact h.refused
    exact absurd hrefused hnot

/-- **A failed release leaves all tags, and all commits but for one case.**  If the name of the tag
cannot be stored or is taken already, that is noticed only when the commit is there: it stays, on top
of the ones there were, and the release fails and still names it.  After any other failure the
history of every repository is the one before. -/
theorem commitRelease_failed_history (host : Host) (w : World) (root : Text) (paths : List Text)
    (version : Text) (tag : Bool) :
    let o := commitRelease host w root paths version tag
    (o.error? ≠ none →
      (∀ dir, (o.world.repository dir).tags = (w.repository dir).tags)
      ∧ ((∀ dir, (o.world.repository dir).commits = (w.repository dir).commits)
          ↔ ¬ (tag = true ∧ ∃ wt commit, RefusedLate host w root paths version wt commit)))
    ∧ ∀ wt commit, tag = true → RefusedLate host w root paths version wt commit →
        o.error? ≠ none ∧ commit.message = version
        ∧ o.release = ⟨host.commitName (w.repository wt.gitDir).commits.length, []⟩
        ∧ ∀ dir, (o.world.repository dir).commits
          = (w.repository dir).commits ++ if dir = wt.gitDir then [commit] else [] := by
  intro o
  have hlate : ∀ wt commit, tag = true → RefusedLate host w root paths version wt commit →
      o.error? ≠ none ∧ commit.message = version
      ∧ o.release = ⟨host.commitName (w.repository wt.gitDir).commits.length, []⟩
      ∧ ∀ dir, (o.world.repository dir).commits
        = (w.repository dir).commits ++ if dir = wt.gitDir then [commit] else [] := by
    rintro wt commit rfl h
    obtain ⟨⟨reason, herror⟩, hresult, hcommits⟩ := h.outcome
    obtain ⟨staged, committed, -, rfl⟩ := h.prepared
    refine ⟨?_, rfl, hresult, hcommits⟩
    rw [show o.error? = _ from herror]
    exact Option.some_ne_none _
  refine ⟨fun herror => ?_, hlate⟩
  -- a commit that was left is one too many
  have hmoved : (∀ dir, (o.world.repository dir).commits = (w.repository dir).commits) →
      ¬ (tag = true ∧ ∃ wt commit, RefusedLate host w root paths version wt commit) := by
    rintro hsame ⟨htag, wt, commit, h⟩
    have hcommits := (hlate wt commit htag h).2.2.2 wt.gitDir
    rw [hsame, if_pos rfl] at hcommits
    simp at hcommits
  have hends := releaseEnds_commitRelease host w root paths version tag
  change ReleaseEnds host w root paths version tag o at hends
  clear_value o
  cases hends with
  | invalidTag htag hinvalid => exact ⟨fun _ => rfl, hmoved, fun _ _ => rfl⟩
  | unopened hopen => exact ⟨fun _ => rfl, hmoved, fun _ _ => rfl⟩
  | unresolved hopen hpaths => exact ⟨fun _ => rfl, hmoved, fun _ _ => rfl⟩
  | uncommitted hopen hhistory hno =>
    exact ⟨fun dir => (hhistory.setRepository dir).tags, hmoved,
      fun _ dir => (hhistory.setRepository dir).commits⟩
  | untagged hprepared htag => exact absurd rfl herror
  | tagged hprepared htag hvalid htagged => exact absurd rfl herror
  | @tagRefused wt staged committed hprepared htag hvalid e hrefused =>
    refine ⟨fun dir => ?_, hmoved, fun hnot => ?_⟩
    · dsimp only
      rw [World.repository_setRepository]
      split
      · next hdir => rw [hdir, hprepared.tags]
      · rfl
    · refine absurd ⟨htag, wt, _, hvalid, ⟨staged, committed, hprepared, rfl⟩, ?_⟩ hnot
      rcases tagHead_cases committed (tagFor version) with ⟨htaken, -⟩ | ⟨-, -, hok⟩
      · rw [TagRefused, hprepared.tags] at htaken
        exact htaken
      · rw [hrefused] at hok
        cases hok

/-! ## A refused tag -/

/-- A host without an environment. -/
def sampleHost : Host := ⟨[], ⟨[], []⟩, fun _ => [], .builtIn, .none⟩

/-- The nodes of a repository's own data. -/
def gitNodes : List (Location × Node) :=
  [([ascii ".git"], .directory Mode.newDirectory),
    ([ascii ".git", ascii "HEAD"], .file Mode.newFile (ascii "ref: refs/heads/main\n"))]

/-- A worktree with an edited manifest, whose only commit has the tag of the next release. -/
def taggedWorld : World where
  files :=
    { nodes := [([], .directory Mode.newDirectory),
        ([ascii "Cargo.toml"], .file Mode.newFile (ascii "[package]\nversion = \"1.0.0\"\n"))]
          ++ gitNodes
      current := [] }
  repositories := [([ascii ".git"], ⟨[⟨ascii "initial", ⟨[], []⟩, []⟩], [(ascii "v1.0.0", 0)], []⟩)]
  input := .ofText []

/-- **A failed release can leave a commit.**  The tag is there already, so the release fails, and its
commit is there nevertheless. -/
theorem commitRelease_tag_taken :
    let o := commitRelease sampleHost taggedWorld (ascii ".") [ascii "Cargo.toml"] (ascii "1.0.0") true
    o.error? = some (.tagging .exists)
      ∧ (taggedWorld.repository [ascii ".git"]).commits.length = 1
      ∧ (o.world.repository [ascii ".git"]).commits.length = 2 := by
  decide +kernel

/-- The tags of that failed release are the ones before, and its commit is the one that was left. -/
theorem commitRelease_failed_history_taken :
    let o := commitRelease sampleHost taggedWorld (ascii ".") [ascii "Cargo.toml"] (ascii "1.0.0") true
    o.error? ≠ none ∧ (∀ dir, (o.world.repository dir).tags = (taggedWorld.repository dir).tags)
      ∧ ∃ wt commit, RefusedLate sampleHost taggedWorld (ascii ".") [ascii "Cargo.toml"]
          (ascii "1.0.0") wt commit
        ∧ commit.message = ascii "1.0.0"
        ∧ (o.world.repository wt.gitDir).commits
          = (taggedWorld.repository wt.gitDir).commits ++ [commit] := by
  have hfailed : (commitRelease sampleHost taggedWorld (ascii ".") [ascii "Cargo.toml"]
        (ascii "1.0.0") true).error? ≠ none
      ∧ ((commitRelease sampleHost taggedWorld (ascii ".") [ascii "Cargo.toml"] (ascii "1.0.0")
          true).world.repository [ascii ".git"]).commits
        ≠ (taggedWorld.repository [ascii ".git"]).commits := by
    decide +kernel
  obtain ⟨hhistory, hlate⟩ := commitRelease_failed_history sampleHost taggedWorld (ascii ".")
    [ascii "Cargo.toml"] (ascii "1.0.0") true
  obtain ⟨htags, hiff⟩ := hhistory hfailed.1
  have hrefused := mt hiff.2 fun hsame => hfailed.2 (hsame _)
  obtain ⟨-, wt, commit, h⟩ := not_not.1 hrefused
  obtain ⟨-, hmessage, -, hcommits⟩ := hlate wt commit rfl h
  refine ⟨hfailed.1, htags, wt, commit, h, hmessage, ?_⟩
  rw [hcommits, if_pos rfl]

end CrateBump
