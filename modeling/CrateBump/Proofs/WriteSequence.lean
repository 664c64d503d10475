/-
# Sequences of writes

Several programs may write versions into the same files, one call at a time and in any order, each in
a workspace of its own.  Since a version that was written decides nothing about what can be written,
every call ends as it would have ended on the files at the start, and at each location the last call
that got through counts.

Main statement: the files after a sequence of calls are the files at the start, revised by the last
call at each location (`revised_filesAfter`).
-/
import CrateBump.Proofs.WriteLoop
import Mathlib.Data.List.Induction

namespace CrateBump

/-! ## Calls -/

/-- A request to write the version of a member of a workspace. -/
structure VersionCall where
  workspace : Workspace
  member : Text
  version : Text
  deriving DecidableEq, Repr

namespace VersionCall

/-- The path of the manifest that a call is about. -/
def path (c : VersionCall) : Text := c.workspace.manifestPath c.member

/-- What a call gives. -/
def run (c : VersionCall) (fs : FileSystem) : Except ManifestError FileSystem :=
  c.workspace.writeVersion fs c.member c.version

/-- Why a call fails, if it does. -/
def error? (c : VersionCall) (fs : FileSystem) : Option ManifestError :=
  match c.run fs with
  | .error e => some e
  | .ok _ => none

/-- The files after a call; one that fails gives none. -/
def filesAfter (c : VersionCall) (fs : FileSystem) : FileSystem :=
  match c.run fs with
  | .error _ => fs
  | .ok fs' => fs'

/-- Whether a call gets through and its manifest path leads to `loc`. -/
def writesAt (fs : FileSystem) (loc : Location) (c : VersionCall) : Bool :=
  (c.error? fs).isNone && decide (fs.resolve true c.path = .ok loc)

/-- A call gets through to a location exactly if that is its target. -/
theorem writesAt_iff {fs : FileSystem} {loc : Location} {c : VersionCall} :
    c.writesAt fs loc = true ↔ c.workspace.versionTarget fs c.member = .ok loc := by
  have herror : (c.error? fs).isNone = true
      ↔ ∃ l, c.workspace.versionTarget fs c.member = .ok l := by
    rw [error?, run, Workspace.writeVersion_eq]
    cases c.workspace.versionTarget fs c.member with
    | error e => simp [Except.map]
    | ok l => simp [Except.map]
  rw [writesAt, Bool.and_eq_true, decide_eq_true_iff, herror]
  constructor
  · rintro ⟨⟨l, htarget⟩, hloc⟩
    have hl := (Workspace.versionTarget_eq_ok_iff.1 htarget).1
    rw [show c.workspace.manifestPath c.member = c.path from rfl, hloc] at hl
    rw [htarget, Except.ok.inj hl]
  · intro htarget
    exact ⟨⟨loc, htarget⟩, (Workspace.versionTarget_eq_ok_iff.1 htarget).1⟩

end VersionCall

/-- The files after calls in order. -/
def filesAfter (fs : FileSystem) (calls : List VersionCall) : FileSystem :=
  calls.foldl (fun fs c => c.filesAfter fs) fs

/-- The last call that would get through to a location of the files at the start. -/
def lastCall? (fs : FileSystem) (loc : Location) (calls : List VersionCall) : Option VersionCall :=
  (calls.filter (VersionCall.writesAt fs loc)).getLast?

theorem filesAfter_concat (fs : FileSystem) (calls : List VersionCall) (c : VersionCall) :
    filesAfter fs (calls ++ [c]) = c.filesAfter (filesAfter fs calls) := by
  rw [filesAfter, List.foldl_append]
  rfl

theorem lastCall?_concat (fs : FileSystem) (loc : Location) (calls : List VersionCall)
    (c : VersionCall) :
    lastCall? fs loc (calls ++ [c])
      = if c.writesAt fs loc then some c else lastCall? fs loc calls := by
  rw [lastCall?, List.filter_append]
  by_cases hc : c.writesAt fs loc = true
  · rw [if_pos hc, List.filter_cons_of_pos hc, List.filter_nil, List.getLast?_concat]
  · rw [if_neg hc, List.filter_cons_of_neg hc, List.filter_nil, List.append_nil, lastCall?]

theorem mem_of_lastCall? {fs : FileSystem} {loc : Location} {calls : List VersionCall}
    {c : VersionCall} (h : lastCall? fs loc calls = some c) :
    c ∈ calls ∧ c.writesAt fs loc = true :=
  List.mem_filter.1 (List.mem_of_getLast? h)

/-! ## Files after calls -/

section Calls

variable {fs gs : FileSystem} {σ : Location → Option Text}

/-- A call ends on revised files as on those at the start. -/
theorem VersionCall.error?_of_revised (h : Revised fs σ gs) (c : VersionCall) :
    c.error? gs = c.error? fs := by
  rw [VersionCall.error?, VersionCall.error?, VersionCall.run, VersionCall.run,
    Workspace.writeVersion_eq, Workspace.writeVersion_eq, h.versionTarget_eq]
  cases c.workspace.versionTarget fs c.member with
  | error e => rfl
  | ok loc => rfl

/-- One more call takes its place at the locations it gets through to. -/
theorem VersionCall.revised (h : Revised fs σ gs) {c : VersionCall}
    (hv : IsVersionText c.version) :
    Revised fs (fun loc => if c.writesAt fs loc then some c.version else σ loc)
      (c.filesAfter gs) := by
  rw [VersionCall.filesAfter, VersionCall.run, Workspace.writeVersion_eq, h.versionTarget_eq]
  cases htarget : c.workspace.versionTarget fs c.member with
  | error e =>
    have hσ : (fun loc => if c.writesAt fs loc then some c.version else σ loc) = σ := by
      funext loc
      rw [if_neg]
      rw [VersionCall.writesAt_iff, htarget]
      exact fun hok => by cases hok
    rw [hσ]
    exact h
  | ok loc =>
    have hσ : (fun l => if c.writesAt fs l then some c.version else σ l)
        = Function.update σ loc (some c.version) := by
      funext l
      rw [Function.update_apply]
      by_cases hl : l = loc
      · rw [if_pos hl, if_pos (VersionCall.writesAt_iff.2 (hl ▸ htarget))]
      · rw [if_neg hl, if_neg]
        rw [VersionCall.writesAt_iff, htarget]
        exact fun hok => hl (Except.ok.inj hok).symm
    rw [hσ]
    exact h.setVersion loc hv

end Calls

/-- **At each location the last call that gets through counts.** -/
theorem revised_filesAfter (fs : FileSystem) {calls : List VersionCall}
    (h : ∀ c ∈ calls, IsVersionText c.version) :
    Revised fs (fun loc => (lastCall? fs loc calls).map VersionCall.version)
      (filesAfter fs calls) := by
  -- a call comes behind all those before it, so the list grows at its end
  induction calls using List.reverseRecOn with
  | nil => exact revised_self fs
  | append_singleton calls c ih =>
    have hbefore := ih fun d hd => h d (List.mem_append_left _ hd)
    have hstep := VersionCall.revised hbefore (h c (List.mem_append_right _ List.mem_cons_self))
    rw [filesAfter_concat]
    have hσ : (fun loc => (lastCall? fs loc (calls ++ [c])).map VersionCall.version)
        = fun loc => if c.writesAt fs loc then some c.version
          else (lastCall? fs loc calls).map VersionCall.version := by
      funext loc
      rw [lastCall?_concat]
      split
      · rfl
      · rfl
    rw [hσ]
    exact hstep

/-- **Of writes in any order the last one counts, and nothing else moves.**  Each call ends, with the
same error if it fails, as it would have ended on the files at the start, and one that fails changes
nothing.  A file has, in the place of its declared version, the version of the last call that gets
through to it; every other node, and all permission bits, are as at the start. -/
theorem filesAfter_last_write (fs : FileSystem) (calls : List VersionCall)
    (h : ∀ c ∈ calls, doubleQuote ∉ c.version ∧ lineFeed ∉ c.version) :
    (∀ done c rest, calls = done ++ c :: rest →
      c.error? (filesAfter fs done) = c.error? fs
      ∧ (c.error? fs ≠ none → filesAfter fs (done ++ [c]) = filesAfter fs done))
    ∧ (∀ loc, lastCall? fs loc calls = none → (filesAfter fs calls).node? loc = fs.node? loc)
    ∧ (∀ loc c, lastCall? fs loc calls = some c →
        ∃ mode content updated, fs.node? loc = some (.file mode content)
          ∧ replaceVersion? content c.version = some updated
          ∧ (filesAfter fs calls).node? loc = some (.file mode updated))
    ∧ (∀ loc, ((filesAfter fs calls).node? loc).bind Node.mode?
        = (fs.node? loc).bind Node.mode?)
    ∧ (filesAfter fs calls).current = fs.current := by
  have hversion : ∀ c ∈ calls, IsVersionText c.version := fun c hc => isVersionText_iff.2 (h c hc)
  have hrevised := revised_filesAfter fs hversion
  refine ⟨?_, ?_, ?_, hrevised.node_mode?, hrevised.current⟩
  · rintro done c rest rfl
    have hdone := revised_filesAfter fs fun d hd => hversion d (List.mem_append_left _ hd)
    have herror := VersionCall.error?_of_revised hdone c
    refine ⟨herror, fun hfails => ?_⟩
    rw [← herror, VersionCall.error?] at hfails
    rw [filesAfter_concat, VersionCall.filesAfter]
    split
    · rfl
    · next hok => simp [hok] at hfails
  · intro loc hnone
    rw [hrevised.node, hnone, Option.map_none, Node.map_withVersion_none]
  · intro loc c hlast
    have htarget := VersionCall.writesAt_iff.1 (mem_of_lastCall? hlast).2
    obtain ⟨-, mode, content, site, hnode, -, -, hfind⟩ :=
      Workspace.versionTarget_eq_ok_iff.1 htarget
    refine ⟨mode, content, site.fill c.version, hnode, replaceVersion?_eq_fill hfind _, ?_⟩
    rw [hrevised.node, hlast, hnode, Option.map_some, Option.map_some, Node.withVersion,
      revisedText_of_find hfind]

/-- The calls of two programs on the sample files.  The second one works in the directory of the
member and reaches the file that the first one reaches through a link. -/
def sampleCalls : List VersionCall :=
  [⟨sampleWorkspace, ascii "b", ascii "2.0.0"⟩, ⟨⟨ascii "a", []⟩, ascii ".", ascii "3.0.0"⟩,
    ⟨sampleWorkspace, ascii "gone", ascii "2.0.0"⟩]

/-- Of two writes to one file the later one counts, and a call about a missing member fails. -/
theorem filesAfter_last_write_aliases :
    let files := sampleFiles Mode.newFile
    (∀ c ∈ sampleCalls, doubleQuote ∉ c.version ∧ lineFeed ∉ c.version)
    ∧ sampleCalls.map (fun c => (c.error? files).isNone) = [true, true, false]
    ∧ (filesAfter files sampleCalls).node? [ascii "a", ascii "Cargo.toml"]
        = some (.file Mode.newFile (ascii "[package]\nversion = \"3.0.0\"\n")) := by
  intro files
  have hfree : ∀ c ∈ sampleCalls, doubleQuote ∉ c.version ∧ lineFeed ∉ c.version := by decide
  have hlast : lastCall? files [ascii "a", ascii "Cargo.toml"] sampleCalls
      = some ⟨⟨ascii "a", []⟩, ascii ".", ascii "3.0.0"⟩ := by decide +kernel
  obtain ⟨mode, content, updated, hnode, hupdated, hafter⟩ :=
    (filesAfter_last_write files sampleCalls hfree).2.2.1 _ _ hlast
  have hsample : files.node? [ascii "a", ascii "Cargo.toml"]
      = some (.file Mode.newFile (ascii "[package]\nversion = \"0.9.9\"\n")) := by decide +kernel
  rw [hsample] at hnode
  obtain ⟨rfl, rfl⟩ := Node.file.inj (Option.some.inj hnode)
  have htext : replaceVersion? (ascii "[package]\nversion = \"0.9.9\"\n") (ascii "3.0.0")
      = some (ascii "[package]\nversion = \"3.0.0\"\n") := by decide +kernel
  rw [htext] at hupdated
  obtain rfl := Option.some.inj hupdated
  exact ⟨hfree, by decide +kernel, hafter⟩

end CrateBump
