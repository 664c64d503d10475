/-
# Whole runs of a bump

A bump ends in one of six ways: no plan can be made, only a preview is asked for, the worktree is not
clean, the prompter fails, the answer declines, or the plan is written.  Only the last one touches a
file or a repository, and nothing but the one reply of the prompter leads to it.

Main statements: these are all the ways (`bumpEnds_bump`), the question is asked exactly if there is
a plan to confirm (`bump_asked`), and only an accepting reply confirms (`bump_confirmed_iff`).  So
nothing changes without a confirmation, and a confirmed bump that ends well has put the bumped version
in the place of the old one in every manifest, once, and has changed nothing else.
-/
import CrateBump.Bump
import CrateBump.Proofs.ReleaseHistory
import CrateBump.Proofs.WriteLoop

namespace CrateBump

/-! ## Prompters -/

namespace Prompter

/-- Asking leaves all files as they are. -/
def KeepsFiles (p : Prompter) : Prop := ∀ q w, (p q w).world.files = w.files

/-- Asking leaves all repositories as they are. -/
def KeepsRepositories (p : Prompter) : Prop :=
  ∀ q w, (p q w).world.repositories = w.repositories

theorem keepsFiles_static (answer : Bool) : (static answer).KeepsFiles := fun _ _ => rfl

theorem keepsFiles_line : line.KeepsFiles := fun _ _ => rfl

theorem keepsRepositories_line : line.KeepsRepositories := fun _ _ => rfl

end Prompter

/-! ## Releases and files -/

/-- What a release leaves of the bump before it. -/
structure ReleaseKeeps (before after : BumpOutcome) : Prop where
  changes : after.changes = before.changes
  confirmed : after.confirmed = before.confirmed
  written : after.written = before.written
  asked : after.asked = before.asked
  files : after.world.files = before.world.files
  input : after.world.input = before.world.input

theorem releaseKeeps_releaseStage (host : Host) (ws : Workspace) (options : BumpOptions)
    (before : BumpOutcome) : ReleaseKeeps before (releaseStage host ws options before) := by
  unfold releaseStage
  split
  · dsimp only
    have hworld := commitRelease_world host before.world ws.dir (before.changes.map Change.path)
      ((before.changes.head?.map Change.newVersion).getD []) options.tag
    split
    · exact ⟨rfl, rfl, rfl, rfl, hworld.1, hworld.2⟩
    · exact ⟨rfl, rfl, rfl, rfl, hworld.1, hworld.2⟩
  · exact ⟨rfl, rfl, rfl, rfl, rfl, rfl⟩

/-! ## The ways a bump ends -/

/-- A bump that got as far as its preview. -/
def previewed (host : Host) (changes : List Change) (w : World) : BumpOutcome :=
  ⟨changes, false, [], none, preview host.env changes, changes.flatMap plannedEvents, [], w, none⟩

/-- A bump that got as far as the reply to its question. -/
def replied (host : Host) (prompter : Prompter) (changes : List Change) (w : World) : BumpOutcome :=
  let reply := prompter (question host.env) w
  { previewed host changes w with
    asked := [question host.env]
    out := preview host.env changes ++ reply.out
    world := reply.world }

/-- How a bump ends, and with which outcome. -/
inductive BumpEnds (host : Host) (ws : Workspace) (prompter : Prompter) (options : BumpOptions)
    (kind : Kind) (w : World) : BumpOutcome → Prop
  | unplanned {e : PlanError} (hplan : plan ws w.files kind = .error e) :
      BumpEnds host ws prompter options kind w
        ⟨[], false, [], none, [], [], [], w, some (.plan e)⟩
  | dryRun {changes : List Change} (hplan : plan ws w.files kind = .ok changes)
      (hdry : options.dryRun = true) (out : Text) :
      BumpEnds host ws prompter options kind w { previewed host changes w with out := out }
  | unclean {changes : List Change} (hplan : plan ws w.files kind = .ok changes)
      (hdry : options.dryRun = false) {e : Git.ReleaseError}
      (hcheck : releaseCheck host ws options changes w = .error e) :
      BumpEnds host ws prompter options kind w
        { previewed host changes w with error? := some (.release e) }
  | failed {changes : List Change} (hplan : plan ws w.files kind = .ok changes)
      (hdry : options.dryRun = false) (hcheck : releaseCheck host ws options changes w = .ok ())
      {text : Text} (hreply : (prompter (question host.env) w).decision = .error text) :
      BumpEnds host ws prompter options kind w
        { replied host prompter changes w with error? := some (.prompt text) }
  | declined {changes : List Change} (hplan : plan ws w.files kind = .ok changes)
      (hdry : options.dryRun = false) (hcheck : releaseCheck host ws options changes w = .ok ())
      (hreply : (prompter (question host.env) w).decision = .ok false) (out : Text) :
      BumpEnds host ws prompter options kind w { replied host prompter changes w with out := out }
  | written {changes : List Change} (hplan : plan ws w.files kind = .ok changes)
      (hdry : options.dryRun = false) (hcheck : releaseCheck host ws options changes w = .ok ())
      (hreply : (prompter (question host.env) w).decision = .ok true) :
      BumpEnds host ws prompter options kind w
        (writeStage host ws options (replied host prompter changes w))

theorem bumpEnds_bump (host : Host) (ws : Workspace) (prompter : Prompter) (options : BumpOptions)
    (kind : Kind) (w : World) :
    BumpEnds host ws prompter options kind w (bump host ws prompter options kind w) := by
  unfold bump
  dsimp only
  -- the splits meet the endings in the order in which a run can take them
  split
  · next e hplan => exact .unplanned hplan
  next changes hplan =>
  split
  · next hdry => exact .dryRun hplan hdry _
  next hdry =>
  rw [Bool.not_eq_true] at hdry
  split
  · next e hcheck => exact .unclean hplan hdry hcheck
  next hcheck =>
  unfold confirmStage
  dsimp only
  split
  · next text hreply => exact .failed hplan hdry hcheck hreply
  · next hreply => exact .declined hplan hdry hcheck hreply _
  · next hreply => exact .written hplan hdry hcheck hreply

/-- What writing a plan leads to, as far as the files go. -/
theorem writeStage_fields (host : Host) (ws : Workspace) (options : BumpOptions)
    (before : BumpOutcome) :
    let after := writeStage host ws options before
    let applied := applyChanges ws before.world.files before.changes
    after.confirmed = true ∧ after.asked = before.asked ∧ after.changes = before.changes
      ∧ after.written = applied.written ∧ after.world.files = applied.files
      ∧ (after.error? = none → applied.error? = none) := by
  unfold writeStage
  dsimp only
  split
  · exact ⟨rfl, rfl, rfl, rfl, rfl, fun h => by cases h⟩
  · next hnone =>
    have hkeeps := releaseKeeps_releaseStage host ws options
    exact ⟨(hkeeps _).confirmed, (hkeeps _).asked, (hkeeps _).changes, (hkeeps _).written,
      (hkeeps _).files, fun _ => hnone⟩

/-- Writing takes nothing from the input. -/
theorem writeStage_input (host : Host) (ws : Workspace) (options : BumpOptions)
    (before : BumpOutcome) :
    (writeStage host ws options before).world.input = before.world.input := by
  unfold writeStage
  dsimp only
  split
  · rfl
  · exact (releaseKeeps_releaseStage host ws options _).input

/-- A plan that is written in full ends without an error if nothing is to be released. -/
theorem writeStage_error?_of_applied {host : Host} {ws : Workspace} {options : BumpOptions}
    {before : BumpOutcome} (hcommit : options.commit = false)
    (h : (applyChanges ws before.world.files before.changes).error? = none) :
    (writeStage host ws options before).error? = before.error? := by
  unfold writeStage
  dsimp only
  rw [h]
  dsimp only
  unfold releaseStage
  rw [if_neg (by simp [hcommit])]

/-- An accepted plan is written. -/
theorem bump_of_accepted {host : Host} {ws : Workspace} {prompter : Prompter}
    {options : BumpOptions} {kind : Kind} {w : World} {changes : List Change}
    (hplan : plan ws w.files kind = .ok changes) (hdry : options.dryRun = false)
    (hcheck : releaseCheck host ws options changes w = .ok ())
    (hreply : (prompter (question host.env) w).decision = .ok true) :
    bump host ws prompter options kind w
      = writeStage host ws options (replied host prompter changes w) := by
  unfold bump confirmStage
  dsimp only
  rw [hplan]
  dsimp only
  rw [if_neg (by simp [hdry]), hcheck]
  dsimp only
  rw [hreply]
  rfl

/-! ## Runs without a confirmation -/

/-- There is a plan, it is to be written, and nothing stands in the way of releasing it. -/
def ToConfirm (host : Host) (ws : Workspace) (options : BumpOptions) (kind : Kind) (w : World) :
    Prop :=
  ∃ changes, plan ws w.files kind = .ok changes ∧ options.dryRun = false
    ∧ releaseCheck host ws options changes w = .ok ()

theorem releaseCheck_eq_ok_iff {host : Host} {ws : Workspace} {options : BumpOptions}
    {changes : List Change} {w : World} :
    releaseCheck host ws options changes w = .ok ()
      ↔ (options.commit = true →
          Git.checkClean host w ws.dir (changes.map Change.path) = .ok ()) := by
  unfold releaseCheck
  by_cases hcommit : options.commit = true
  · rw [if_pos hcommit]
    exact ⟨fun h _ => h, fun h => h hcommit⟩
  · rw [if_neg hcommit]
    exact ⟨fun _ h => absurd h hcommit, fun _ => rfl⟩

section Unconfirmed

variable (host : Host) (ws : Workspace) (prompter : Prompter) (options : BumpOptions) (kind : Kind)
  (w : World)

/-- The question is asked once or not at all, and exactly if there is a plan to confirm. -/
theorem bump_asked :
    (bump host ws prompter options kind w).asked = [] ∧ ¬ ToConfirm host ws options kind w
      ∨ (bump host ws prompter options kind w).asked = [question host.env]
        ∧ ToConfirm host ws options kind w := by
  have hends := bumpEnds_bump host ws prompter options kind w
  generalize bump host ws prompter options kind w = o at hends ⊢
  cases hends with
  | unplanned hplan =>
    refine Or.inl ⟨rfl, ?_⟩
    rintro ⟨changes, hok, -⟩
    rw [hplan] at hok
    cases hok
  | dryRun hplan hdry out =>
    refine Or.inl ⟨rfl, ?_⟩
    rintro ⟨changes, -, hno, -⟩
    rw [hdry] at hno
    cases hno
  | @unclean planned hplan hdry e hcheck =>
    refine Or.inl ⟨rfl, ?_⟩
    rintro ⟨changes, hok, -, hclean⟩
    rw [hplan] at hok
    obtain rfl := Except.ok.inj hok
    rw [hcheck] at hclean
    cases hclean
  | failed hplan hdry hcheck hreply => exact Or.inr ⟨rfl, _, hplan, hdry, hcheck⟩
  | declined hplan hdry hcheck hreply out => exact Or.inr ⟨rfl, _, hplan, hdry, hcheck⟩
  | written hplan hdry hcheck hreply =>
    exact Or.inr ⟨(writeStage_fields host ws options _).2.1, _, hplan, hdry, hcheck⟩

/-- A run is confirmed by an accepting reply and by nothing else. -/
theorem bump_confirmed_iff :
    (bump host ws prompter options kind w).confirmed = true
      ↔ (bump host ws prompter options kind w).asked ≠ []
        ∧ (prompter (question host.env) w).decision = .ok true := by
  have hends := bumpEnds_bump host ws prompter options kind w
  generalize bump host ws prompter options kind w = o at hends ⊢
  cases hends with
  | unplanned hplan => simp
  | dryRun hplan hdry out => simp [previewed]
  | unclean hplan hdry hcheck => simp [previewed]
  | failed hplan hdry hcheck hreply => simp [replied, previewed, hreply]
  | declined hplan hdry hcheck hreply out => simp [replied, previewed, hreply]
  | @written changes hplan hdry hcheck hreply =>
    obtain ⟨hconfirmed, hasked, -⟩ :=
      writeStage_fields host ws options (replied host prompter changes w)
    refine ⟨fun _ => ⟨?_, hreply⟩, fun _ => hconfirmed⟩
    rw [hasked]
    exact List.cons_ne_nil _ _

/-- Without a confirmation a bump itself changes nothing: the world is the one it was given, or, if
the question was asked, the one the prompter left. -/
theorem bump_world_of_unconfirmed
    (h : (bump host ws prompter options kind w).confirmed = false) :
    (bump host ws prompter options kind w).written = []
      ∧ (bump host ws prompter options kind w).release? = none
      ∧ (bump host ws prompter options kind w).world
        = if (bump host ws prompter options kind w).asked = [] then w
          else (prompter (question host.env) w).world := by
  have hends := bumpEnds_bump host ws prompter options kind w
  generalize bump host ws prompter options kind w = o at hends h ⊢
  cases hends with
  | unplanned hplan => exact ⟨rfl, rfl, rfl⟩
  | dryRun hplan hdry out => exact ⟨rfl, rfl, rfl⟩
  | unclean hplan hdry hcheck => exact ⟨rfl, rfl, rfl⟩
  | failed hplan hdry hcheck hreply => exact ⟨rfl, rfl, rfl⟩
  | declined hplan hdry hcheck hreply out => exact ⟨rfl, rfl, rfl⟩
  | written hplan hdry hcheck hreply =>
    rw [(writeStage_fields host ws options _).1] at h
    cases h

variable {host ws prompter options kind w}

/-- What asking leaves as it is, a bump without a confirmation leaves as it is. -/
theorem bump_keeps_of_unconfirmed {β : Type} {view : World → β}
    (hkeeps : ∀ q w, view (prompter q w).world = view w)
    (h : (bump host ws prompter options kind w).confirmed = false) :
    view (bump host ws prompter options kind w).world = view w := by
  rw [(bump_world_of_unconfirmed host ws prompter options kind w h).2.2]
  split
  · rfl
  · exact hkeeps _ w

/-- Of a prompter only its reply to the one question matters. -/
theorem bump_congr_reply {other : Prompter}
    (h : other (question host.env) w = prompter (question host.env) w) :
    bump host ws other options kind w = bump host ws prompter options kind w := by
  unfold bump confirmStage
  dsimp only
  rw [h]

/-- A prompter that is not asked does not matter. -/
theorem bump_of_not_asked (h : (bump host ws prompter options kind w).asked = [])
    (other : Prompter) :
    bump host ws other options kind w = bump host ws prompter options kind w := by
  have hnot : ¬ ToConfirm host ws options kind w := by
    rcases bump_asked host ws prompter options kind w with ⟨-, hnot⟩ | ⟨hasked, -⟩
    · exact hnot
    · rw [h] at hasked
      cases hasked
  unfold bump
  dsimp only
  split
  · rfl
  next changes hplan =>
  split
  · rfl
  next hdry =>
  split
  · rfl
  next hcheck =>
  exact absurd ⟨changes, hplan, by simpa using hdry, hcheck⟩ hnot

end Unconfirmed

/-- **Nothing changes without a confirmation.**  A run is confirmed exactly by an accepting reply.  A
run that is not has written nothing and released nothing, and the world is the one it was given, or
the one the prompter left; so all files and repositories are as they were, unless the prompter itself
changes them.  The question is asked at most once, and exactly if there is a plan, no dry run is
asked for, and, before a release, the worktree is clean; the prompter has no other influence.
Without a plan nothing is printed. -/
theorem bump_unconfirmed (host : Host) (ws : Workspace) (prompter : Prompter)
    (options : BumpOptions) (kind : Kind) (w : World) :
    let o := bump host ws prompter options kind w
    (o.confirmed = false →
      o.written = [] ∧ o.release? = none
      ∧ o.world = (if o.asked = [] then w else (prompter (question host.env) w).world)
      ∧ (prompter.KeepsFiles → o.world.files = w.files)
      ∧ (prompter.KeepsRepositories → o.world.repositories = w.repositories))
    ∧ (o.confirmed = true
        ↔ o.asked ≠ [] ∧ (prompter (question host.env) w).decision = .ok true)
    ∧ o.asked.length ≤ 1
    ∧ (o.asked ≠ [] ↔ ∃ changes, plan ws w.files kind = .ok changes ∧ options.dryRun = false
        ∧ (options.commit = true →
            Git.checkClean host w ws.dir (changes.map Change.path) = .ok ()))
    ∧ (∀ other : Prompter,
        o.asked = [] ∨ other (question host.env) w = prompter (question host.env) w →
          bump host ws other options kind w = o)
    ∧ (∀ e, plan ws w.files kind = .error e → o.out = [] ∧ o.world = w) := by
  intro o
  refine ⟨fun h => ?_, bump_confirmed_iff host ws prompter options kind w, ?_, ?_, ?_, ?_⟩
  · obtain ⟨hwritten, hrelease, hworld⟩ := bump_world_of_unconfirmed host ws prompter options kind w h
    refine ⟨hwritten, hrelease, hworld, fun hkeeps => ?_, fun hkeeps => ?_⟩
    · exact bump_keeps_of_unconfirmed hkeeps h
    · exact bump_keeps_of_unconfirmed hkeeps h
  · rcases bump_asked host ws prompter options kind w with ⟨hasked, -⟩ | ⟨hasked, -⟩
    · rw [show o.asked = _ from hasked]
      exact Nat.zero_le 1
    · rw [show o.asked = _ from hasked]
      exact Nat.le_refl 1
  · simp only [← releaseCheck_eq_ok_iff]
    rcases bump_asked host ws prompter options kind w with ⟨hasked, hnot⟩ | ⟨hasked, hchanges⟩
    · exact ⟨fun h => absurd hasked h, fun h => absurd h hnot⟩
    · refine ⟨fun _ => hchanges, fun _ => ?_⟩
      rw [show o.asked = _ from hasked]
      exact List.cons_ne_nil _ _
  · rintro other (hasked | hreply)
    · exact bump_of_not_asked hasked other
    · exact bump_congr_reply hreply
  · intro e hplan
    have hout : bump host ws prompter options kind w
        = ⟨[], false, [], none, [], [], [], w, some (.plan e)⟩ := by
      unfold bump
      rw [hplan]
    rw [show o = _ from hout]
    exact ⟨rfl, rfl⟩

/-- The sample files, without any repository, and an input. -/
def sampleWorld (input : Text) : World := ⟨sampleFiles Mode.newFile, [], .ofText input⟩

theorem plan_sample :
    plan sampleWorkspace (sampleFiles Mode.newFile) .minor = .ok sampleChanges := by
  decide +kernel

/-- A bump of the sample files does ask. -/
theorem bump_sample_asked (prompter : Prompter) (input : Text) :
    (bump sampleHost sampleWorkspace prompter ⟨false, false, false⟩ .minor
      (sampleWorld input)).asked ≠ [] := by
  rcases bump_asked sampleHost sampleWorkspace prompter ⟨false, false, false⟩ .minor
    (sampleWorld input) with ⟨-, hnot⟩ | ⟨hasked, -⟩
  · refine absurd ⟨sampleChanges, plan_sample, rfl, ?_⟩ hnot
    exact releaseCheck_eq_ok_iff.2 (fun h => by cases h)
  · intro h
    rw [hasked] at h
    exact List.cons_ne_nil _ _ h

theorem line_sample_decision :
    (Prompter.line (question sampleHost.env) (sampleWorld (ascii "n\n"))).decision = .ok false := by
  decide +kernel

/-- A declined bump of the sample files. -/
theorem bump_unconfirmed_declined :
    let o := bump sampleHost sampleWorkspace .line ⟨false, false, false⟩ .minor
      (sampleWorld (ascii "n\n"))
    o.confirmed = false ∧ o.asked ≠ [] ∧ o.written = []
      ∧ o.world.files = sampleFiles Mode.newFile ∧ o.world.repositories = [] := by
  obtain ⟨hunconfirmed, hiff, -⟩ :=
    bump_unconfirmed sampleHost sampleWorkspace .line ⟨false, false, false⟩ .minor
      (sampleWorld (ascii "n\n"))
  have hasked := bump_sample_asked .line (ascii "n\n")
  rw [line_sample_decision] at hiff
  -- from here on the run is not looked into again
  generalize bump sampleHost sampleWorkspace .line ⟨false, false, false⟩ .minor
    (sampleWorld (ascii "n\n")) = o at hunconfirmed hiff hasked ⊢
  have hconfirmed : o.confirmed = false := by
    refine Bool.eq_false_iff.2 fun h => ?_
    obtain ⟨-, haccepted⟩ := hiff.1 h
    cases haccepted
  obtain ⟨hwritten, -, -, hfiles, hrepositories⟩ := hunconfirmed hconfirmed
  exact ⟨hconfirmed, hasked, hwritten, hfiles Prompter.keepsFiles_line,
    hrepositories Prompter.keepsRepositories_line⟩

/-! ## Runs with a confirmation -/

/-- **A confirmed bump that ends without an error is exact.**  The changes and the written members
follow the member list of the root manifest, the root first.  Every manifest the plan leads to, by
however many members and links, has its bumped version in the place of the old one, once; every other
node and all permission bits are as before; and every previewed new version is the one declared
afterwards. -/
theorem bump_confirmed_exact {host : Host} {ws : Workspace} {prompter : Prompter}
    {options : BumpOptions} {kind : Kind} {w : World} (hprompter : prompter.KeepsFiles)
    (hconfirmed : (bump host ws prompter options kind w).confirmed = true)
    (herror : (bump host ws prompter options kind w).error? = none) :
    let o := bump host ws prompter options kind w
    ∃ content members, ws.readManifest w.files Workspace.rootMember = .ok content
      ∧ findMembers? content = some members
      ∧ o.changes.map Change.member = Workspace.rootMember :: members
      ∧ o.written = Workspace.rootMember :: members
      ∧ (∀ c ∈ o.changes, bumpVersion c.oldVersion kind = .ok c.newVersion)
      ∧ Rewrites ws w.files o.changes o.world.files
      ∧ ∀ c ∈ o.changes, ws.queryVersion o.world.files c.member = .ok c.newVersion := by
  intro o
  have hends := bumpEnds_bump host ws prompter options kind w
  change o.confirmed = true at hconfirmed
  change o.error? = none at herror
  change BumpEnds host ws prompter options kind w o at hends
  generalize o = o at hends hconfirmed herror ⊢
  cases hends with
  | unplanned hplan => cases hconfirmed
  | dryRun hplan hdry out => cases hconfirmed
  | unclean hplan hdry hcheck => cases hconfirmed
  | failed hplan hdry hcheck hreply => cases hconfirmed
  | declined hplan hdry hcheck hreply out => cases hconfirmed
  | @written changes hplan hdry hcheck hreply =>
    obtain ⟨-, -, hchanges, hwritten, hfiles, hnone⟩ :=
      writeStage_fields host ws options (replied host prompter changes w)
    obtain ⟨content, members, hread, hmembers, hlist, hplanned⟩ := plan_eq_ok hplan
    -- the plan was made of the files that are written, since asking did not touch them
    have hbefore : (replied host prompter changes w).world.files = w.files := hprompter _ w
    rw [hbefore] at hwritten hfiles hnone
    rcases applyChanges_cases hplanned with
      ⟨-, gs, hrewrites, hrun⟩ | ⟨done, c, rest, e, gs, -, -, -, -, hrun⟩
    · rw [show applyChanges ws w.files (replied host prompter changes w).changes = _ from hrun]
        at hwritten hfiles
      rw [hchanges, hwritten, hfiles]
      refine ⟨content, members, hread, hmembers, hlist, hlist, ?_, hrewrites, ?_⟩
      · intro c hc
        exact (hplanned c hc).new
      · intro c hc
        exact hrewrites.queryVersion hc (hplanned c hc)
    · rw [show applyChanges ws w.files (replied host prompter changes w).changes = _ from hrun]
        at hnone
      cases hnone herror

theorem applyChanges_sample :
    (applyChanges sampleWorkspace (sampleFiles Mode.newFile) sampleChanges).error? = none := by
  decide +kernel

/-- An accepted bump of the sample files, where each manifest is reached twice. -/
theorem bump_confirmed_exact_aliases :
    let o := bump sampleHost sampleWorkspace (.static true) ⟨false, false, false⟩ .minor
      (sampleWorld [])
    o.confirmed = true ∧ o.error? = none
      ∧ o.changes.map Change.member = [ascii ".", ascii "./", ascii "a", ascii "b"]
      ∧ Rewrites sampleWorkspace (sampleFiles Mode.newFile) o.changes o.world.files := by
  have hrun : bump sampleHost sampleWorkspace (.static true) ⟨false, false, false⟩ .minor
      (sampleWorld [])
        = writeStage sampleHost sampleWorkspace ⟨false, false, false⟩
          (replied sampleHost (.static true) sampleChanges (sampleWorld [])) :=
    bump_of_accepted plan_sample rfl (releaseCheck_eq_ok_iff.2 fun h => by cases h) rfl
  obtain ⟨hconfirmed, -, hchanges, -⟩ := writeStage_fields sampleHost sampleWorkspace
    ⟨false, false, false⟩ (replied sampleHost (.static true) sampleChanges (sampleWorld []))
  have herror : (writeStage sampleHost sampleWorkspace ⟨false, false, false⟩
      (replied sampleHost (.static true) sampleChanges (sampleWorld []))).error? = none :=
    writeStage_error?_of_applied rfl applyChanges_sample
  rw [← hrun] at hconfirmed hchanges herror
  obtain ⟨content, members, -, -, -, -, -, hrewrites, -⟩ :=
    bump_confirmed_exact (Prompter.keepsFiles_static true) hconfirmed herror
  generalize bump sampleHost sampleWorkspace (.static true) ⟨false, false, false⟩ .minor
    (sampleWorld []) = o at hconfirmed hchanges herror hrewrites ⊢
  refine ⟨hconfirmed, herror, ?_, hrewrites⟩
  rw [hchanges]
  rfl

end CrateBump
