/-
# Drift

A plan measures every member against the root.  The root comes first in the member list, so its
version is known before any member is measured, and a root that is listed again changes nothing.  A
bump warns of each member that is behind or ahead, in the order of the plan, and of nothing else.

Main statements: every drift is measured against the version of the root (`planMembers_drift`), the
warnings of a bump are those of its drifting changes (`warnings_bump`), and so the drift is the
numeric comparison with the root and is logged exactly so (`drift_measured_and_logged`).
-/
import CrateBump.Log.Render
import CrateBump.Proofs.Precedence

namespace CrateBump

/-! ## Measuring against the root -/

/-- The version that is carried along is the root's, at the latest when the root has been read. -/
theorem planMembers_drift {ws : Workspace} {fs : FileSystem} {kind : Kind} {rootVersion root : Text}
    {members : List Text} {changes : List Change}
    (hroot : ws.queryVersion fs Workspace.rootMember = .ok rootVersion)
    (hcarried : members.head? = some Workspace.rootMember ∨ root = rootVersion)
    (h : planMembers ws fs kind root members = .ok changes) :
    ∀ c ∈ changes, c.drift
      = if c.member = Workspace.rootMember then 0 else driftBetween c.oldVersion rootVersion := by
  induction members generalizing root changes with
  | nil =>
    obtain rfl := Except.ok.inj h
    exact fun c hc => absurd hc List.not_mem_nil
  | cons member rest ih =>
    rw [planMembers] at h
    split at h
    · cases h
    next old hold =>
    split at h
    · cases h
    next new hnew =>
    dsimp only at h
    split at h
    · cases h
    next changes' hrest =>
    obtain rfl := Except.ok.inj h
    by_cases hmember : member = Workspace.rootMember
    · -- the root sets the version anew, to the same text every time
      obtain rfl : old = rootVersion := by
        rw [hmember, hroot] at hold
        exact (Except.ok.inj hold).symm
      rw [if_pos (beq_iff_eq.2 hmember)] at hrest
      rintro c (_ | ⟨_, hc⟩)
      · dsimp only
        rw [if_pos (beq_iff_eq.2 hmember), if_pos hmember]
      · exact ih (.inr rfl) hrest c hc
    · obtain rfl : root = rootVersion :=
        hcarried.resolve_left fun hhead => hmember (Option.some.inj hhead)
      rw [if_neg (mt beq_iff_eq.1 hmember)] at hrest
      rintro c (_ | ⟨_, hc⟩)
      · dsimp only
        rw [if_neg (mt beq_iff_eq.1 hmember), if_neg hmember]
      · exact ih (.inr rfl) hrest c hc

/-- Every drift of a plan is measured against the version of the root. -/
theorem plan_drift {ws : Workspace} {fs : FileSystem} {kind : Kind} {changes : List Change}
    (h : plan ws fs kind = .ok changes) :
    ∃ rootVersion root, ws.queryVersion fs Workspace.rootMember = .ok rootVersion
      ∧ Triple.parse rootVersion = .ok root
      ∧ ∀ c ∈ changes, c.drift
        = if c.member = Workspace.rootMember then 0 else driftBetween c.oldVersion rootVersion := by
  obtain ⟨first, rest, -, hfirst, hplanned⟩ := plan_eq_cons h
  have hroot := hplanned.old
  rw [hfirst] at hroot
  obtain ⟨root, -, hparse, -⟩ := bumpVersion_eq_ok_iff.1 hplanned.new
  refine ⟨first.oldVersion, root, hroot, hparse, ?_⟩
  unfold plan Workspace.allMembers at h
  split at h
  · cases h
  next members hall =>
  split at hall
  · cases hall
  next listed hlisted =>
  obtain rfl := Except.ok.inj hall
  exact planMembers_drift hroot (.inl rfl) h

/-- The number that a drift shows tells the order of the numbers. -/
theorem signOf_cases {o : Ordering} {s t : List Nat} (h : o.Compares s t) :
    (s < t ∧ signOf o = -1) ∨ (s = t ∧ signOf o = 0) ∨ (t < s ∧ signOf o = 1) := by
  cases o with
  | lt => exact .inl ⟨h, rfl⟩
  | eq => exact .inr (.inl ⟨h, rfl⟩)
  | gt => exact .inr (.inr ⟨h, rfl⟩)

/-! ## Warnings -/

/-- The events of the level `warn`. -/
def warnings (es : List Log.Event) : List Log.Event := es.filter fun e => e.level = .warn

/-- The warning about a member that is behind or ahead, in full. -/
def driftWarning (c : Change) : Log.Event where
  level := .warn
  fields := [⟨ascii "component", .text (ascii "bump")⟩, ⟨ascii "member", .text c.member⟩,
    ⟨ascii "version", .text c.oldVersion⟩]
  message :=
    if c.drift < 0 then ascii "member is behind the workspace root"
    else ascii "member is ahead of the workspace root"

/-- The warnings about the changes that drift, in their order. -/
def driftWarnings (changes : List Change) : List Log.Event :=
  (changes.filter fun c => c.drift ≠ 0).map driftWarning

theorem warnings_append (es fs : List Log.Event) :
    warnings (es ++ fs) = warnings es ++ warnings fs := List.filter_append ..

theorem warnings_plannedEvents (c : Change) :
    warnings (plannedEvents c) = if c.drift ≠ 0 then [driftWarning c] else [] := by
  have hplanned : warnings [bumpEvent .debug [Log.Field.ofText "member" c.member,
      Log.Field.ofText "package" c.name, Log.Field.ofText "path" c.path] "planned"] = [] := rfl
  rw [plannedEvents, warnings_append, hplanned, List.append_nil]
  unfold driftEvents driftWarning
  dsimp only
  rcases Int.lt_trichotomy c.drift 0 with h | h | h
  · rw [if_pos h, if_pos h.ne, if_pos h]
    rfl
  · rw [if_neg h.not_lt, if_neg h.not_gt, if_neg (not_not.2 h)]
    rfl
  · rw [if_neg h.not_gt, if_pos h, if_pos h.ne', if_neg h.not_gt]
    rfl

theorem warnings_planned (changes : List Change) :
    warnings (changes.flatMap plannedEvents) = driftWarnings changes := by
  induction changes with
  | nil => rfl
  | cons c changes ih =>
    rw [List.flatMap_cons, warnings_append, warnings_plannedEvents, ih]
    unfold driftWarnings
    by_cases h : c.drift ≠ 0
    · rw [if_pos h, List.filter_cons_of_pos (by simpa using h), List.map_cons,
        List.singleton_append]
    · rw [if_neg h, List.filter_cons_of_neg (by simpa using h), List.nil_append]

theorem warnings_map_writtenEvent (changes : List Change) :
    warnings (changes.map writtenEvent) = [] := by
  refine List.filter_eq_nil_iff.2 fun e he => ?_
  obtain ⟨c, -, rfl⟩ := List.mem_map.1 he
  exact Bool.false_ne_true

/-- Writing and releasing warn of nothing. -/
theorem warnings_writeStage (host : Host) (ws : Workspace) (options : BumpOptions)
    (before : BumpOutcome) :
    warnings (writeStage host ws options before).events = warnings before.events := by
  have hstopped : ∀ p, warnings [stoppedEvent p] = [] := fun _ => rfl
  have hreleased : ∀ r, warnings [releaseEvent r] = [] := fun _ => rfl
  unfold writeStage releaseStage
  dsimp only
  repeat' split
  all_goals
    simp only [warnings_append, warnings_map_writtenEvent, hstopped, hreleased, List.append_nil]

/-- The warnings of a bump are those of its changes that drift. -/
theorem warnings_bump (host : Host) (ws : Workspace) (prompter : Prompter) (options : BumpOptions)
    (kind : Kind) (w : World) :
    warnings (bump host ws prompter options kind w).events
      = driftWarnings (bump host ws prompter options kind w).changes := by
  have hends := bumpEnds_bump host ws prompter options kind w
  generalize bump host ws prompter options kind w = o at hends ⊢
  cases hends with
  | unplanned hplan => rfl
  | dryRun hplan hdry out => exact warnings_planned _
  | unclean hplan hdry hcheck => exact warnings_planned _
  | failed hplan hdry hcheck hreply => exact warnings_planned _
  | declined hplan hdry hcheck hreply out => exact warnings_planned _
  | written hplan hdry hcheck hreply =>
    rw [warnings_writeStage, (writeStage_fields host ws options _).2.2.1]
    exact warnings_planned _

/-- A bump previews the changes of its plan. -/
theorem bump_changes {host : Host} {ws : Workspace} {prompter : Prompter} {options : BumpOptions}
    {kind : Kind} {w : World} {changes : List Change} (h : plan ws w.files kind = .ok changes) :
    (bump host ws prompter options kind w).changes = changes := by
  have hends := bumpEnds_bump host ws prompter options kind w
  generalize bump host ws prompter options kind w = o at hends ⊢
  cases hends with
  | unplanned hplan =>
    rw [h] at hplan
    cases hplan
  | written hplan hdry hcheck hreply =>
    rw [(writeStage_fields host ws options _).2.2.1]
    rw [h] at hplan
    exact (Except.ok.inj hplan).symm
  | _ hplan =>
    rw [h] at hplan
    exact (Except.ok.inj hplan).symm

/-! ## What a logger writes -/

namespace Log.Logger

/-- The events for which the logger writes a record. -/
def records (l : Logger) (es : List Event) : List Event := es.filter fun e => l.write e ≠ []

theorem write_eq_nil_iff {l : Logger} {e : Event} :
    l.write e = [] ↔ e.level.rank < l.threshold.rank := by
  unfold write
  split
  · next h => exact ⟨fun _ => h, fun _ => rfl⟩
  · next h =>
    refine ⟨fun hnil => ?_, fun hlt => absurd hlt h⟩
    split at hnil
    · simp [jsonLine] at hnil
    · simp [prettyLine] at hnil

theorem writeAll_eq_records (l : Logger) (es : List Event) :
    l.writeAll es = (l.records es).flatMap l.write := by
  unfold writeAll records
  induction es with
  | nil => rfl
  | cons e es ih =>
    by_cases h : l.write e = []
    · rw [List.flatMap_cons, h, List.nil_append, ih, List.filter_cons_of_neg (by simpa using h)]
    · rw [List.flatMap_cons, ih, List.filter_cons_of_pos (by simpa using h), List.flatMap_cons]

/-- A logger of level `warn` or lower writes every warning. -/
theorem warnings_records {l : Logger} (h : l.threshold.rank ≤ Level.warn.rank) (es : List Event) :
    warnings (l.records es) = warnings es := by
  unfold warnings records
  rw [List.filter_filter]
  refine List.filter_congr fun e _ => ?_
  by_cases hwarn : e.level = .warn
  · have hwritten : l.write e ≠ [] := by
      rw [Ne, write_eq_nil_iff, hwarn]
      exact Nat.not_lt.2 h
    simp [hwarn, hwritten]
  · simp [hwarn]

end Log.Logger

/-- **The drift is the numeric comparison with the root, and it is logged exactly so.**  In a plan
that can be made every version has a canonical form; a member's drift says whether its three numbers,
one after the other, are below, equal to or above the root's, and the root's own drift is zero
wherever it is listed.  A logger of level `warn` or lower writes, in the order of the plan, one
warning for each change with a drift other than zero, saying behind or ahead, and no other warning. -/
theorem drift_measured_and_logged (host : Host) (ws : Workspace) (prompter : Prompter)
    (options : BumpOptions) (kind : Kind) (w : World) {l : Log.Logger}
    (hlevel : l.threshold.rank ≤ Log.Level.warn.rank) :
    let o := bump host ws prompter options kind w
    (∀ changes, plan ws w.files kind = .ok changes →
      o.changes = changes
      ∧ ∃ rootVersion root, ws.queryVersion w.files Workspace.rootMember = .ok rootVersion
        ∧ Triple.parse rootVersion = .ok root
        ∧ ∀ c ∈ changes, ∃ v form, Triple.parse c.oldVersion = .ok v
          ∧ canonical c.oldVersion = .ok form
          ∧ (c.member = Workspace.rootMember → c.drift = 0)
          ∧ (c.member ≠ Workspace.rootMember →
            (v.numbers < root.numbers ∧ c.drift = -1)
            ∨ (v.numbers = root.numbers ∧ c.drift = 0)
            ∨ (root.numbers < v.numbers ∧ c.drift = 1)))
    ∧ l.writeAll o.events = (l.records o.events).flatMap l.write
    ∧ warnings (l.records o.events) = (o.changes.filter fun c => c.drift ≠ 0).map driftWarning := by
  intro o
  refine ⟨fun changes hplan => ⟨bump_changes hplan, ?_⟩, l.writeAll_eq_records _, ?_⟩
  · obtain ⟨rootVersion, root, hroot, hparse, hdrift⟩ := plan_drift hplan
    obtain ⟨-, -, -, -, -, hplanned⟩ := plan_eq_ok hplan
    refine ⟨rootVersion, root, hroot, hparse, fun c hc => ?_⟩
    obtain ⟨v, -, hv, -⟩ := bumpVersion_eq_ok_iff.1 (hplanned c hc).new
    refine ⟨v, _, hv, canonical_of_parse hv, fun hmember => ?_, fun hmember => ?_⟩
    · rw [hdrift c hc, if_pos hmember]
    · rw [hdrift c hc, if_neg hmember]
      exact signOf_cases (versionOrder_compares hv hparse)
  · rw [Log.Logger.warnings_records hlevel]
    exact warnings_bump host ws prompter options kind w

/-- A root that lists a member ahead of it, itself, a member at its version and one behind it. -/
def driftingWorld : World where
  files :=
    { nodes :=
        [([], .directory Mode.newDirectory),
          ([ascii "Cargo.toml"], .file Mode.newFile (ascii <|
            "[package]\nversion = \"1.09.0\"\n"
              ++ "[workspace]\nmembers = [\"core\", \".\", \"cli\", \"old\"]\n")),
          ([ascii "core"], .directory Mode.newDirectory),
          ([ascii "core", ascii "Cargo.toml"], .file Mode.newFile
            (ascii "[package]\nversion = \"1.10.0\"\n")),
          ([ascii "cli"], .directory Mode.newDirectory),
          ([ascii "cli", ascii "Cargo.toml"], .file Mode.newFile
            (ascii "[package]\nversion = \"001.9.00\"\n")),
          ([ascii "old"], .directory Mode.newDirectory),
          ([ascii "old", ascii "Cargo.toml"], .file Mode.newFile
            (ascii "[package]\nversion = \"1.8.99\"\n"))]
      current := [] }
  repositories := []
  input := .ofText []

/-- The plan of a patch bump of these files. -/
def driftingChanges : List Change :=
  [⟨ascii ".", ascii "Cargo.toml", [], ascii "1.09.0", ascii "1.9.1", 0⟩,
    ⟨ascii "core", ascii "core/Cargo.toml", [], ascii "1.10.0", ascii "1.10.1", 1⟩,
    ⟨ascii ".", ascii "Cargo.toml", [], ascii "1.09.0", ascii "1.9.1", 0⟩,
    ⟨ascii "cli", ascii "cli/Cargo.toml", [], ascii "001.9.00", ascii "1.9.1", 0⟩,
    ⟨ascii "old", ascii "old/Cargo.toml", [], ascii "1.8.99", ascii "1.8.100", -1⟩]

theorem plan_drifting :
    plan ⟨[], []⟩ driftingWorld.files .patch = .ok driftingChanges := by
  decide +kernel

/-- Of the five changes of this plan two are warned of, in their order. -/
theorem drift_measured_and_logged_five :
    let l : Log.Logger := ⟨.warn, .json, false, ⟨[], []⟩⟩
    let o := bump sampleHost ⟨[], []⟩ (.static true) ⟨true, false, false⟩ .patch driftingWorld
    l.threshold.rank ≤ Log.Level.warn.rank ∧ o.changes = driftingChanges
      ∧ warnings (l.records o.events)
        = [⟨.warn, [⟨ascii "component", .text (ascii "bump")⟩,
                ⟨ascii "member", .text (ascii "core")⟩, ⟨ascii "version", .text (ascii "1.10.0")⟩],
              ascii "member is ahead of the workspace root"⟩,
            ⟨.warn, [⟨ascii "component", .text (ascii "bump")⟩,
                ⟨ascii "member", .text (ascii "old")⟩, ⟨ascii "version", .text (ascii "1.8.99")⟩],
              ascii "member is behind the workspace root"⟩] := by
  intro l o
  have hlevel : l.threshold.rank ≤ Log.Level.warn.rank := Nat.le_refl _
  obtain ⟨hmeasured, -, hwarnings⟩ := drift_measured_and_logged sampleHost ⟨[], []⟩ (.static true)
    ⟨true, false, false⟩ .patch driftingWorld hlevel
  have hchanges := (hmeasured driftingChanges plan_drifting).1
  refine ⟨hlevel, hchanges, ?_⟩
  rw [hwarnings, hchanges]
  rfl

end CrateBump
