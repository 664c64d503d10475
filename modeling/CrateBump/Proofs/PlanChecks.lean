/-
# The checks of a plan

Planning is a row of checks: the root manifest can be read and lists members, and then, member by
member, its manifest can be read, declares a version, the version is a triplet, and the kind is known.
A plan is made if all of them pass.  Otherwise the first one that does not is the one reported, and
none behind it is looked at.

Main statements: planning makes its checks in this order and stops at the first that fails
(`plan_checked`), it looks at no more of a manifest than the line searches find in it
(`plan_eq_of_scanned`), and so a plan succeeds exactly when everything is in order and reports the
first failure otherwise (`plan_first_failure`).
-/
import CrateBump.Proofs.AcceptedVersions

namespace CrateBump

/-! ## Checks -/

/-- Something that planning makes sure of. -/
inductive PlanCheck where
  /-- The root manifest can be read. -/
  | rootReadable
  /-- The root manifest has a members array. -/
  | membersFound
  /-- The manifest of a member can be read. -/
  | readable (member : Text)
  /-- The manifest of a member declares a version. -/
  | versionFound (member : Text)
  /-- The version of a member is a triplet. -/
  | triplet (member : Text)
  /-- The kind names a component; this is looked at once for each member. -/
  | kindKnown (member : Text)
  deriving DecidableEq, Repr

namespace PlanCheck

/-- The cause that a check stands for. -/
def cause : PlanCheck → Cause
  | rootReadable => .manifestUnreadable
  | membersFound => .membersNotFound
  | readable _ => .manifestUnreadable
  | versionFound _ => .versionNotFound
  | triplet _ => .versionFormat
  | kindKnown _ => .invalidKind

/-- What a check asks of the files and the kind. -/
def Holds (ws : Workspace) (fs : FileSystem) (kind : Kind) : PlanCheck → Prop
  | rootReadable => ∃ content, ws.readManifest fs Workspace.rootMember = .ok content
  | membersFound => ∃ content members, ws.readManifest fs Workspace.rootMember = .ok content
      ∧ findMembers? content = some members
  | readable m => ∃ content, ws.readManifest fs m = .ok content
  | versionFound m => ∃ content site, ws.readManifest fs m = .ok content
      ∧ findVersion? content = some site
  | triplet m => ∃ content site, ws.readManifest fs m = .ok content
      ∧ findVersion? content = some site ∧ IsTriplet site.version
  | kindKnown _ => kind.isKnown = true

/-- The error that tells of a check that fails. -/
def Reports (ws : Workspace) (fs : FileSystem) (kind : Kind) : PlanCheck → PlanError → Prop
  | rootReadable, e => ∃ f, fs.readFile (ws.manifestPath Workspace.rootMember) = .error f
      ∧ e = .manifest (.unreadable f)
  | membersFound, e => e = .manifest (.noMembers (ws.manifestPath Workspace.rootMember))
  | readable m, e => ∃ f, fs.readFile (ws.manifestPath m) = .error f
      ∧ e = .manifest (.unreadable f)
  | versionFound m, e => e = .manifest (.noVersion (ws.manifestPath m))
  | triplet m, e => ∃ version v, ws.queryVersion fs m = .ok version
      ∧ Triple.parse version = .error v ∧ e = .version m v
  | kindKnown m, e => e = .version m (.kind kind)

theorem cause?_of_reports {ws : Workspace} {fs : FileSystem} {kind : Kind} {check : PlanCheck}
    {e : PlanError} (h : check.Reports ws fs kind e) : e.cause? = some check.cause := by
  cases check with
  | rootReadable =>
    obtain ⟨f, -, rfl⟩ := h
    rfl
  | membersFound =>
    subst h
    rfl
  | readable m =>
    obtain ⟨f, -, rfl⟩ := h
    rfl
  | versionFound m =>
    subst h
    rfl
  | triplet m =>
    obtain ⟨version, v, -, hparse, rfl⟩ := h
    exact congrArg some (Triple.parse_error_cause hparse)
  | kindKnown m =>
    subst h
    rfl

end PlanCheck

/-- The checks of one member, in order. -/
def memberChecks (m : Text) : List PlanCheck :=
  [.readable m, .versionFound m, .triplet m, .kindKnown m]

/-- The checks of a workspace with some members, in order. -/
def planChecks (members : List Text) : List PlanCheck :=
  .rootReadable :: .membersFound :: (Workspace.rootMember :: members).flatMap memberChecks

/-! ## Making checks one after the other -/

/-- A result that checks led to: all of them passed, or the first that failed is reported. -/
inductive Checked (ws : Workspace) (fs : FileSystem) (kind : Kind) {α : Type}
    (checks : List PlanCheck) : Except PlanError α → Prop
  | passed (hall : ∀ c ∈ checks, c.Holds ws fs kind) (a : α) : Checked ws fs kind checks (.ok a)
  | stopped (before : List PlanCheck) {after : List PlanCheck} {check : PlanCheck} {e : PlanError}
      (hcut : checks = before ++ check :: after) (hbefore : ∀ c ∈ before, c.Holds ws fs kind)
      (hfails : ¬ check.Holds ws fs kind) (hreports : check.Reports ws fs kind e) :
      Checked ws fs kind checks (.error e)

namespace Checked

variable {ws : Workspace} {fs : FileSystem} {kind : Kind} {α : Type} {checks : List PlanCheck}

/-- Checks that passed may stand in front. -/
theorem behind {result : Except PlanError α} (h : Checked ws fs kind checks result)
    (first : List PlanCheck) (hfirst : ∀ c ∈ first, c.Holds ws fs kind) :
    Checked ws fs kind (first ++ checks) result := by
  have hboth : ∀ {more : List PlanCheck}, (∀ c ∈ more, c.Holds ws fs kind) →
      ∀ c ∈ first ++ more, c.Holds ws fs kind := by
    intro more hmore c hc
    rcases List.mem_append.1 hc with hc | hc
    · exact hfirst c hc
    · exact hmore c hc
  cases h with
  | passed hall a => exact .passed (hboth hall) a
  | @stopped front after check _ hcut hbefore hfails hreports =>
    have hcut' : first ++ checks = (first ++ front) ++ check :: after := by
      rw [hcut, List.append_assoc]
    exact .stopped _ hcut' (hboth hbefore) hfails hreports

/-- Behind a check that failed others may follow. -/
theorem before {e : PlanError} (h : Checked ws fs kind checks (.error e : Except PlanError α))
    (last : List PlanCheck) :
    Checked ws fs kind (checks ++ last) (.error e : Except PlanError α) := by
  cases h with
  | @stopped front after check _ hcut hbefore hfails hreports =>
    have hcut' : checks ++ last = front ++ check :: (after ++ last) := by
      rw [hcut, List.append_assoc, List.cons_append]
    exact .stopped _ hcut' hbefore hfails hreports

/-- A result is a success exactly if all checks pass. -/
theorem exists_ok_iff {result : Except PlanError α} (h : Checked ws fs kind checks result) :
    (∃ a, result = .ok a) ↔ ∀ c ∈ checks, c.Holds ws fs kind := by
  cases h with
  | passed hall a => exact ⟨fun _ => hall, fun _ => ⟨a, rfl⟩⟩
  | stopped _ hcut hbefore hfails hreports =>
    refine ⟨fun ⟨a, ha⟩ => (nomatch ha), fun hall => absurd (hall _ ?_) hfails⟩
    rw [hcut]
    exact List.mem_append_right _ List.mem_cons_self

end Checked

/-! ## One member -/

section Member

variable {ws : Workspace} {fs : FileSystem} {kind : Kind} {m : Text}

theorem Workspace.readManifest_eq_error {e : ManifestError} (h : ws.readManifest fs m = .error e) :
    ∃ f, fs.readFile (ws.manifestPath m) = .error f ∧ e = .unreadable f := by
  unfold readManifest at h
  split at h
  · cases h
  · next f hf => exact ⟨f, hf, (Except.error.inj h).symm⟩

/-- A version that is there passes the checks up to it. -/
theorem holds_of_queryVersion {version : Text} (h : ws.queryVersion fs m = .ok version) :
    ∃ content site, ws.readManifest fs m = .ok content ∧ findVersion? content = some site
      ∧ site.version = version := by
  obtain ⟨loc, mode, content, site, hloc, hnode, hread, hsite, hversion⟩ :=
    Workspace.queryVersion_eq_ok_iff.1 h
  exact ⟨content, site, Workspace.readManifest_eq_ok_iff.2 ⟨loc, mode, hloc, hnode, hread⟩, hsite,
    hversion⟩

/-- A version that cannot be given fails at one of the first two checks. -/
theorem checked_of_queryVersion_error {α : Type} {e : ManifestError}
    (h : ws.queryVersion fs m = .error e) :
    Checked ws fs kind (memberChecks m) (.error (.manifest e) : Except PlanError α) := by
  unfold Workspace.queryVersion at h
  split at h
  · next e' hread =>
    obtain rfl := Except.error.inj h
    obtain ⟨f, hf, rfl⟩ := Workspace.readManifest_eq_error hread
    refine .stopped [] rfl (by simp) ?_ ⟨f, hf, rfl⟩
    rintro ⟨content, hcontent⟩
    rw [hread] at hcontent
    cases hcontent
  · next content hread =>
    split at h
    · cases h
    · next hnone =>
      obtain rfl := Except.error.inj h
      refine .stopped [.readable m] rfl ?_ ?_ rfl
      · exact List.forall_mem_singleton.2 ⟨content, hread⟩
      · rintro ⟨content', site, hcontent, hsite⟩
        rw [hread] at hcontent
        obtain rfl := Except.ok.inj hcontent
        rw [hnone] at hsite
        cases hsite

/-- A version that cannot be bumped fails at one of the last two checks. -/
theorem checked_of_bumpVersion_error {α : Type} {version : Text} {e : VersionError}
    (hversion : ws.queryVersion fs m = .ok version) (h : bumpVersion version kind = .error e) :
    Checked ws fs kind (memberChecks m) (.error (.version m e) : Except PlanError α) := by
  obtain ⟨content, site, hread, hsite, hdeclared⟩ := holds_of_queryVersion hversion
  have hreadable : (PlanCheck.readable m).Holds ws fs kind := ⟨content, hread⟩
  have hfound : (PlanCheck.versionFound m).Holds ws fs kind := ⟨content, site, hread, hsite⟩
  have htriplet : (PlanCheck.triplet m).Holds ws fs kind ↔ IsTriplet version := by
    rw [← hdeclared]
    refine ⟨?_, fun h => ⟨content, site, hread, hsite, h⟩⟩
    rintro ⟨content', site', hread', hsite', h⟩
    rw [hread] at hread'
    obtain rfl := Except.ok.inj hread'
    rw [hsite] at hsite'
    exact Option.some.inj hsite' ▸ h
  unfold bumpVersion at h
  split at h
  · next e' hparse =>
    obtain rfl := Except.error.inj h
    refine .stopped [.readable m, .versionFound m] rfl ?_ ?_
      ⟨version, e', hversion, hparse, rfl⟩
    · exact List.forall_mem_cons.2 ⟨hreadable, List.forall_mem_singleton.2 hfound⟩
    · rw [htriplet, ← bumpable_iff_isTriplet]
      rintro ⟨v, hv⟩
      rw [hparse] at hv
      cases hv
  · next v hparse =>
    split at h
    · cases h
    · next hbump =>
      obtain rfl := Except.error.inj h
      refine .stopped [.readable m, .versionFound m, .triplet m] rfl ?_ ?_ rfl
      · refine List.forall_mem_cons.2 ⟨hreadable, List.forall_mem_cons.2 ⟨hfound, ?_⟩⟩
        exact List.forall_mem_singleton.2 (htriplet.2 (bumpable_iff_isTriplet.1 ⟨v, hparse⟩))
      · intro hknown
        obtain ⟨bumped, hsome⟩ := Triple.exists_bump hknown v
        rw [hbump] at hsome
        cases hsome

/-- A version that was bumped has passed all checks of its member. -/
theorem holds_of_bumpVersion {version new : Text} (hversion : ws.queryVersion fs m = .ok version)
    (h : bumpVersion version kind = .ok new) : ∀ c ∈ memberChecks m, c.Holds ws fs kind := by
  obtain ⟨content, site, hread, hsite, rfl⟩ := holds_of_queryVersion hversion
  obtain ⟨hbumpable, hknown, -⟩ := bumpVersion_eq_ok h
  have htriplet : IsTriplet site.version := bumpable_iff_isTriplet.1 hbumpable
  intro c hc
  simp only [memberChecks, List.mem_cons, List.not_mem_nil, or_false] at hc
  rcases hc with rfl | rfl | rfl | rfl
  · exact ⟨content, hread⟩
  · exact ⟨content, site, hread, hsite⟩
  · exact ⟨content, site, hread, hsite, htriplet⟩
  · exact hknown

end Member

/-! ## All members -/

/-- The members are checked in their order, each of them in full before the next. -/
theorem planMembers_checked (ws : Workspace) (fs : FileSystem) (kind : Kind) (root : Text)
    (members : List Text) :
    Checked ws fs kind (members.flatMap memberChecks) (planMembers ws fs kind root members) := by
  induction members generalizing root with
  | nil => exact .passed (by simp) []
  | cons m rest ih =>
    rw [planMembers, List.flatMap_cons]
    split
    · next e hquery => exact (checked_of_queryVersion_error hquery).before _
    next old hquery =>
    split
    · next e hbump => exact (checked_of_bumpVersion_error hquery hbump).before _
    next new hbump =>
    dsimp only
    have hpassed := holds_of_bumpVersion hquery hbump
    have hrest := (ih (if m == Workspace.rootMember then old else root)).behind _ hpassed
    split
    · next e heq =>
      rw [heq] at hrest
      exact hrest
    · next changes heq =>
      rw [heq] at hrest
      cases hrest with
      | passed hall => exact .passed hall _

/-- The members that the root manifest lists, none if it cannot be read. -/
def Workspace.listed (ws : Workspace) (fs : FileSystem) : List Text :=
  match ws.queryMembers fs with
  | .ok members => members
  | .error _ => []

/-- **Planning makes its checks in order and reports the first that fails.** -/
theorem plan_checked (ws : Workspace) (fs : FileSystem) (kind : Kind) :
    Checked ws fs kind (planChecks (ws.listed fs)) (plan ws fs kind) := by
  unfold plan Workspace.allMembers Workspace.listed planChecks
  cases hquery : ws.queryMembers fs with
  | ok members =>
    have hquery' := hquery
    unfold Workspace.queryMembers at hquery'
    split at hquery'
    · cases hquery'
    next content hread =>
    split at hquery'
    · next members' hmembers =>
      refine (planMembers_checked ws fs kind [] (Workspace.rootMember :: members)).behind
        [.rootReadable, .membersFound] ?_
      exact List.forall_mem_cons.2 ⟨⟨content, hread⟩,
        List.forall_mem_singleton.2 ⟨content, members', hread, hmembers⟩⟩
    · cases hquery'
  | error e =>
    unfold Workspace.queryMembers at hquery
    split at hquery
    · next e' hread =>
      obtain rfl := Except.error.inj hquery
      obtain ⟨f, hf, rfl⟩ := Workspace.readManifest_eq_error hread
      refine .stopped [] rfl (by simp) ?_ ⟨f, hf, rfl⟩
      rintro ⟨content, hcontent⟩
      rw [hread] at hcontent
      cases hcontent
    next content hread =>
    split at hquery
    · cases hquery
    · next hnone =>
      obtain rfl := Except.error.inj hquery
      refine .stopped [.rootReadable] rfl ?_ ?_ rfl
      · exact List.forall_mem_singleton.2 ⟨content, hread⟩
      · rintro ⟨content', members, hcontent, hmembers⟩
        rw [hread] at hcontent
        obtain rfl := Except.ok.inj hcontent
        rw [hnone] at hmembers
        cases hmembers

/-! ## What planning looks at -/

/-- What the line searches find in a member's manifest: its version and its members array. -/
def Workspace.scanned (ws : Workspace) (fs : FileSystem) (m : Text) :
    Except ManifestError (Option Text × Option (List Text)) :=
  (ws.readManifest fs m).map fun content =>
    ((findVersion? content).map VersionSite.version, findMembers? content)

/-- A change apart from its label. -/
def Change.unlabelled (c : Change) : Change := { c with name := [] }

/-- A version is given as it was found. -/
theorem Workspace.queryVersion_eq_scanned (ws : Workspace) (fs : FileSystem) (m : Text) :
    ws.queryVersion fs m = (ws.scanned fs m).bind fun found =>
      found.1.elim (.error (.noVersion (ws.manifestPath m))) .ok := by
  unfold queryVersion scanned
  cases ws.readManifest fs m with
  | error e => rfl
  | ok content =>
    dsimp only [Except.map, Except.bind]
    cases findVersion? content with
    | none => rfl
    | some site => rfl

/-- Members are given as they were found. -/
theorem Workspace.queryMembers_eq_scanned (ws : Workspace) (fs : FileSystem) :
    ws.queryMembers fs = (ws.scanned fs rootMember).bind fun found =>
      found.2.elim (.error (.noMembers (ws.manifestPath rootMember))) .ok := by
  unfold queryMembers scanned
  cases ws.readManifest fs rootMember with
  | error e => rfl
  | ok content =>
    dsimp only [Except.map, Except.bind]
    cases findMembers? content with
    | none => rfl
    | some members => rfl

theorem planMembers_eq_of_scanned {ws : Workspace} {fs gs : FileSystem} (kind : Kind) (root : Text)
    {members : List Text} (h : ∀ m ∈ members, ws.scanned gs m = ws.scanned fs m) :
    (planMembers ws gs kind root members).map (List.map Change.unlabelled)
      = (planMembers ws fs kind root members).map (List.map Change.unlabelled) := by
  induction members generalizing root with
  | nil => rfl
  | cons m rest ih =>
    have hquery : ws.queryVersion gs m = ws.queryVersion fs m := by
      rw [Workspace.queryVersion_eq_scanned, Workspace.queryVersion_eq_scanned,
        h m List.mem_cons_self]
    rw [planMembers, planMembers, hquery]
    cases ws.queryVersion fs m with
    | error e => rfl
    | ok old =>
      dsimp only
      cases bumpVersion old kind with
      | error e => rfl
      | ok new =>
        dsimp only
        have hrest := ih (if m == Workspace.rootMember then old else root)
          fun m' hm' => h m' (List.mem_cons_of_mem _ hm')
        -- the two changes differ in their labels only, and so do the changes behind them
        generalize planMembers ws gs kind _ rest = laterG at hrest ⊢
        generalize planMembers ws fs kind _ rest = laterF at hrest ⊢
        cases laterG with
        | error e =>
          cases laterF with
          | error e' => exact hrest
          | ok changes' => cases hrest
        | ok changes =>
          cases laterF with
          | error e' => cases hrest
          | ok changes' =>
            have hchanges := Except.ok.inj hrest
            simp only [Except.map, List.map_cons, Change.unlabelled, hchanges]

/-- **A plan depends on what the line searches find, and on nothing else, but for its labels.** -/
theorem plan_eq_of_scanned {ws : Workspace} {fs gs : FileSystem} (kind : Kind)
    (h : ∀ m ∈ Workspace.rootMember :: ws.listed fs, ws.scanned gs m = ws.scanned fs m) :
    (plan ws gs kind).map (List.map Change.unlabelled)
      = (plan ws fs kind).map (List.map Change.unlabelled) := by
  have hquery : ws.queryMembers gs = ws.queryMembers fs := by
    rw [Workspace.queryMembers_eq_scanned, Workspace.queryMembers_eq_scanned,
      h _ List.mem_cons_self]
  unfold plan Workspace.allMembers
  rw [hquery]
  unfold Workspace.listed at h
  cases hmembers : ws.queryMembers fs with
  | error e => rfl
  | ok members =>
    rw [hmembers] at h
    exact planMembers_eq_of_scanned kind [] h

/-! ## Labels -/

/-- The name of the package in a manifest, empty if the manifest is no document that has one. -/
def packageName (content : Text) : Text :=
  ((PackageInfo.ofManifest? .written content).map PackageInfo.name).getD []

theorem Workspace.label_of_readManifest {ws : Workspace} {fs : FileSystem} {m content : Text}
    (h : ws.readManifest fs m = .ok content) : ws.label fs m = packageName content := by
  have hread : fs.readFile (ws.manifestPath m) = .ok content := by
    rw [FileSystem.readFile_eq_ok_iff, ← readManifest_eq_ok_iff, h]
  unfold label packageInfo packageName
  simp only [hread]
  cases PackageInfo.ofManifest? .written content with
  | none => rfl
  | some info => rfl

theorem planMembers_name {ws : Workspace} {fs : FileSystem} {kind : Kind} {root : Text}
    {members : List Text} {changes : List Change}
    (h : planMembers ws fs kind root members = .ok changes) :
    ∀ c ∈ changes, c.name = ws.label fs c.member := by
  induction members generalizing root changes with
  | nil =>
    obtain rfl := Except.ok.inj h
    exact fun c hc => absurd hc List.not_mem_nil
  | cons member rest ih =>
    rw [planMembers] at h
    split at h
    · cases h
    split at h
    · cases h
    dsimp only at h
    split at h
    · cases h
    next changes' hrest =>
    obtain rfl := Except.ok.inj h
    exact List.forall_mem_cons.2 ⟨rfl, ih hrest⟩

theorem plan_name {ws : Workspace} {fs : FileSystem} {kind : Kind} {changes : List Change}
    (h : plan ws fs kind = .ok changes) : ∀ c ∈ changes, c.name = ws.label fs c.member := by
  unfold plan at h
  split at h
  · cases h
  · exact planMembers_name h

/-! ## The plan -/

/-- All checks pass if the root lists members and everything that is listed is in order. -/
theorem forall_holds_planChecks_iff {ws : Workspace} {fs : FileSystem} {kind : Kind} :
    (∀ c ∈ planChecks (ws.listed fs), c.Holds ws fs kind)
      ↔ ∃ content members, ws.readManifest fs Workspace.rootMember = .ok content
        ∧ findMembers? content = some members
        ∧ (∀ m ∈ Workspace.rootMember :: members, ∃ text site, ws.readManifest fs m = .ok text
          ∧ findVersion? text = some site ∧ IsTriplet site.version)
        ∧ kind.isKnown = true := by
  have hlisted : ∀ {content members}, ws.readManifest fs Workspace.rootMember = .ok content →
      findMembers? content = some members → ws.listed fs = members := by
    intro content members hread hmembers
    simp only [Workspace.listed, Workspace.queryMembers, hread, hmembers]
  constructor
  · intro hall
    obtain ⟨content, members, hread, hmembers⟩ := hall .membersFound (by simp [planChecks])
    rw [hlisted hread hmembers] at hall
    have hmember : ∀ m ∈ Workspace.rootMember :: members, ∀ c ∈ memberChecks m,
        c.Holds ws fs kind := by
      intro m hm c hc
      refine hall c (List.mem_cons_of_mem _ (List.mem_cons_of_mem _ ?_))
      exact List.mem_flatMap.2 ⟨m, hm, hc⟩
    refine ⟨content, members, hread, hmembers, fun m hm => ?_, ?_⟩
    · exact hmember m hm (.triplet m) (by simp [memberChecks])
    · exact hmember _ List.mem_cons_self (.kindKnown Workspace.rootMember) (by simp [memberChecks])
  · rintro ⟨content, members, hread, hmembers, hversions, hknown⟩
    rw [hlisted hread hmembers]
    refine List.forall_mem_cons.2 ⟨⟨content, hread⟩, List.forall_mem_cons.2
      ⟨⟨content, members, hread, hmembers⟩, fun c hc => ?_⟩⟩
    obtain ⟨m, hm, hc⟩ := List.mem_flatMap.1 hc
    obtain ⟨text, site, htext, hsite, htriplet⟩ := hversions m hm
    obtain ⟨new, hnew⟩ := bumpVersion_of_bumpable (bumpable_iff_isTriplet.2 htriplet) hknown
    refine holds_of_bumpVersion ?_ hnew c hc
    simp only [Workspace.queryVersion, htext, hsite]

/-- **A plan succeeds exactly when everything is in order, and reports the first failure otherwise.**
It succeeds if the root manifest can be read and lists members, the root and every member have a
manifest that declares a triplet, and the kind is known.  Then it has one change for each of them, in
order, with its version, the bumped version and the path of its manifest.  If it fails, then all
checks before some check have passed, that check has not, and the error is the one of that check and
has its cause alone.  Whether manifests are documents for a reader of whole documents shows in the
labels of the changes and nowhere else. -/
theorem plan_first_failure (ws : Workspace) (fs : FileSystem) (kind : Kind) :
    ((∃ changes, plan ws fs kind = .ok changes)
      ↔ ∃ content members, ws.readManifest fs Workspace.rootMember = .ok content
        ∧ findMembers? content = some members
        ∧ (∀ m ∈ Workspace.rootMember :: members, ∃ text site, ws.readManifest fs m = .ok text
          ∧ findVersion? text = some site ∧ IsTriplet site.version)
        ∧ kind.isKnown = true)
    ∧ (∀ changes, plan ws fs kind = .ok changes →
      ∃ content members, ws.readManifest fs Workspace.rootMember = .ok content
        ∧ findMembers? content = some members
        ∧ changes.map Change.member = Workspace.rootMember :: members
        ∧ ∀ c ∈ changes, c.path = ws.manifestPath c.member
          ∧ ∃ text site, ws.readManifest fs c.member = .ok text ∧ findVersion? text = some site
            ∧ c.oldVersion = site.version ∧ bumpVersion c.oldVersion kind = .ok c.newVersion
            ∧ c.name = packageName text)
    ∧ (∀ e, plan ws fs kind = .error e →
      ∃ before check after, planChecks (ws.listed fs) = before ++ check :: after
        ∧ (∀ c ∈ before, c.Holds ws fs kind) ∧ ¬ check.Holds ws fs kind
        ∧ check.Reports ws fs kind e ∧ ∀ cause, e.cause? = some cause ↔ cause = check.cause)
    ∧ ∀ gs, (∀ m ∈ Workspace.rootMember :: ws.listed fs, ws.scanned gs m = ws.scanned fs m) →
      (plan ws gs kind).map (List.map Change.unlabelled)
        = (plan ws fs kind).map (List.map Change.unlabelled) := by
  have hchecked := plan_checked ws fs kind
  refine ⟨?_, ?_, ?_, fun gs hscanned => plan_eq_of_scanned kind hscanned⟩
  · rw [hchecked.exists_ok_iff, forall_holds_planChecks_iff]
  · intro changes hplan
    obtain ⟨content, members, hread, hmembers, hlist, hplanned⟩ := plan_eq_ok hplan
    refine ⟨content, members, hread, hmembers, hlist, fun c hc => ⟨(hplanned c hc).path, ?_⟩⟩
    obtain ⟨text, site, htext, hsite, hversion⟩ := holds_of_queryVersion (hplanned c hc).old
    refine ⟨text, site, htext, hsite, hversion.symm, (hplanned c hc).new, ?_⟩
    rw [plan_name hplan c hc, Workspace.label_of_readManifest htext]
  · intro e hplan
    rw [hplan] at hchecked
    cases hchecked with
    | @stopped before after check _ hcut hbefore hfails hreports =>
      refine ⟨before, check, after, hcut, hbefore, hfails, hreports, fun cause => ?_⟩
      rw [PlanCheck.cause?_of_reports hreports, Option.some.injEq, eq_comm]

/-- A root with one member, whose manifest is given. -/
def oneMember (manifest : String) : FileSystem where
  nodes :=
    [([], .directory Mode.newDirectory),
      ([ascii "Cargo.toml"], .file Mode.newFile
        (ascii "[package]\nversion = \"1.2.3\"\n[workspace]\nmembers = [\"a\"]\n")),
      ([ascii "a"], .directory Mode.newDirectory),
      ([ascii "a", ascii "Cargo.toml"], .file Mode.newFile (ascii manifest))]
  current := []

/-- The plan of a patch bump of these files, if the member has the root's version. -/
def oneMemberChanges (name : Text) : List Change :=
  [⟨ascii ".", ascii "Cargo.toml", [], ascii "1.2.3", ascii "1.2.4", 0⟩,
    ⟨ascii "a", ascii "a/Cargo.toml", name, ascii "1.2.3", ascii "1.2.4", 0⟩]

/-- A name that is not quoted makes a manifest unreadable as a document, and takes the label from the
plan and nothing else. -/
theorem plan_first_failure_unlabelled :
    let fs := oneMember "[package]\nname = \"core\"\nversion = \"1.2.3\"\n"
    let gs := oneMember "[package]\nname = core\nversion = \"1.2.3\"\n"
    let ws : Workspace := ⟨[], []⟩
    (∀ m ∈ Workspace.rootMember :: ws.listed fs, ws.scanned gs m = ws.scanned fs m)
      ∧ plan ws fs .patch = .ok (oneMemberChanges (ascii "core"))
      ∧ plan ws gs .patch = .ok (oneMemberChanges [])
      ∧ (plan ws gs .patch).map (List.map Change.unlabelled)
        = (plan ws fs .patch).map (List.map Change.unlabelled) := by
  intro fs gs ws
  have hscanned : ∀ m ∈ Workspace.rootMember :: ws.listed fs, ws.scanned gs m = ws.scanned fs m := by
    decide +kernel
  refine ⟨hscanned, by decide +kernel, by decide +kernel, ?_⟩
  exact (plan_first_failure ws fs .patch).2.2.2 gs hscanned

-- an unknown kind is noticed at the root, before the member's version is looked at
example : plan ⟨[], []⟩ (oneMember "[package]\nversion = \"1.2\"\n") (.unknown 4)
    = .error (.version (ascii ".") (.kind (.unknown 4))) := by
  decide +kernel

end CrateBump
