/-
# What a plan promises

A plan that succeeds has one change for the root and one for every declared member, in order.  Each
change was read off a file that is there and declares a version, and its new version is made of digits
and dots, so that it can be written and found again.
-/
import CrateBump.Plan
import CrateBump.Proofs.FileShape
import CrateBump.Proofs.VersionRewrite

namespace CrateBump

/-! ## New versions -/

theorem isVersionByte_of_isDigit {b : UInt8} (h : Text.isDigit b = true) :
    isVersionByte b = true := by
  rw [isVersionByte_iff]
  refine ⟨?_, ?_⟩
  · rintro rfl
    exact absurd h (by decide)
  · rintro rfl
    exact absurd h (by decide)

theorem isVersionText_ofNat (n : Nat) : IsVersionText (Decimal.ofNat n) := fun _ hb =>
  isVersionByte_of_isDigit (Decimal.isDigit_of_mem_ofNat hb)

theorem IsVersionText.append {s t : Text} (hs : IsVersionText s) (ht : IsVersionText t) :
    IsVersionText (s ++ t) := by
  intro b hb
  rcases List.mem_append.1 hb with hb | hb
  · exact hs b hb
  · exact ht b hb

/-- A version that was computed is made of the bytes that a version line may hold. -/
theorem isVersionText_render (v : Triple) : IsVersionText v.render := by
  have hdot : IsVersionText [dot] := by decide
  exact ((((isVersionText_ofNat _).append hdot).append (isVersionText_ofNat _)).append hdot).append
    (isVersionText_ofNat _)

/-- A bumped version can be written between quotes. -/
theorem isVersionText_bumpVersion {old new : Text} {kind : Kind}
    (h : bumpVersion old kind = .ok new) : IsVersionText new := by
  unfold bumpVersion at h
  split at h
  · cases h
  · split at h
    · next bumped _ =>
      obtain rfl := Except.ok.inj h
      exact isVersionText_render bumped
    · cases h

/-! ## Declared versions -/

namespace Workspace

/-- A manifest is read exactly if its path leads to a readable file, and then its content is what is
read. -/
theorem readManifest_eq_ok_iff {ws : Workspace} {fs : FileSystem} {member content : Text} :
    ws.readManifest fs member = .ok content
      ↔ ∃ loc mode, fs.resolve true (ws.manifestPath member) = .ok loc
        ∧ fs.node? loc = some (.file mode content) ∧ mode.canRead = true := by
  rw [← FileSystem.readFile_eq_ok_iff, readManifest]
  cases fs.readFile (ws.manifestPath member) with
  | error e => simp
  | ok c => simp

/-- A version is read off the file that the manifest path leads to. -/
theorem queryVersion_eq_ok_iff {ws : Workspace} {fs : FileSystem} {member version : Text} :
    ws.queryVersion fs member = .ok version
      ↔ ∃ loc mode content site, fs.resolve true (ws.manifestPath member) = .ok loc
        ∧ fs.node? loc = some (.file mode content) ∧ mode.canRead = true
        ∧ findVersion? content = some site ∧ site.version = version := by
  constructor
  · intro h
    unfold queryVersion at h
    split at h
    · cases h
    next content hcontent =>
    split at h
    · next site hsite =>
      obtain rfl := Except.ok.inj h
      obtain ⟨loc, mode, hloc, hnode, hread⟩ := readManifest_eq_ok_iff.1 hcontent
      exact ⟨loc, mode, content, site, hloc, hnode, hread, hsite, rfl⟩
    · cases h
  · rintro ⟨loc, mode, content, site, hloc, hnode, hread, hsite, rfl⟩
    have hcontent := readManifest_eq_ok_iff.2 ⟨loc, mode, hloc, hnode, hread⟩
    simp only [queryVersion, hcontent, hsite]

/-- What is read off a file that is known. -/
theorem queryVersion_of_file {ws : Workspace} {fs : FileSystem} {member content version : Text}
    {loc : Location} {mode : Mode} (hloc : fs.resolve true (ws.manifestPath member) = .ok loc)
    (hnode : fs.node? loc = some (.file mode content))
    (h : ws.queryVersion fs member = .ok version) :
    mode.canRead = true ∧ ∃ site, findVersion? content = some site ∧ site.version = version := by
  obtain ⟨loc', mode', content', site, hloc', hnode', hread, hfind, hversion⟩ :=
    queryVersion_eq_ok_iff.1 h
  rw [hloc] at hloc'
  obtain rfl := Except.ok.inj hloc'
  rw [hnode] at hnode'
  obtain ⟨rfl, rfl⟩ := Node.file.inj (Option.some.inj hnode')
  exact ⟨hread, site, hfind, hversion⟩

end Workspace

/-! ## Plans -/

/-- A change as a plan makes it: read off the member's manifest, and bumped. -/
structure Planned (ws : Workspace) (fs : FileSystem) (kind : Kind) (c : Change) : Prop where
  path : c.path = ws.manifestPath c.member
  old : ws.queryVersion fs c.member = .ok c.oldVersion
  new : bumpVersion c.oldVersion kind = .ok c.newVersion

/-- A plan holds one change for each member, in their order, each computed from what the member
declares. -/
theorem planMembers_eq_ok {ws : Workspace} {fs : FileSystem} {kind : Kind} {root : Text}
    {members : List Text} {changes : List Change}
    (h : planMembers ws fs kind root members = .ok changes) :
    changes.map Change.member = members ∧ ∀ c ∈ changes, Planned ws fs kind c := by
  induction members generalizing root changes with
  | nil =>
    obtain rfl := Except.ok.inj h
    exact ⟨rfl, fun c hc => absurd hc List.not_mem_nil⟩
  | cons member rest ih =>
    rw [planMembers] at h
    split at h
    · cases h
    next old hold =>
    split at h
    · cases h
    next new hnew =>
    dsimp only at h
    split at h
    · cases h
    next changes' hrest =>
    obtain rfl := Except.ok.inj h
    obtain ⟨hmembers, hplanned⟩ := ih hrest
    refine ⟨by rw [List.map_cons, hmembers], ?_⟩
    intro c hc
    rcases List.mem_cons.1 hc with rfl | hc
    · exact ⟨rfl, hold, hnew⟩
    · exact hplanned c hc

/-- A plan that succeeds follows the member list of the root manifest. -/
theorem plan_eq_ok {ws : Workspace} {fs : FileSystem} {kind : Kind} {changes : List Change}
    (h : plan ws fs kind = .ok changes) :
    ∃ content members, ws.readManifest fs Workspace.rootMember = .ok content
      ∧ findMembers? content = some members
      ∧ changes.map Change.member = Workspace.rootMember :: members
      ∧ ∀ c ∈ changes, Planned ws fs kind c := by
  unfold plan Workspace.allMembers Workspace.queryMembers at h
  cases hread : ws.readManifest fs Workspace.rootMember with
  | error e =>
    rw [hread] at h
    cases h
  | ok content =>
    rw [hread] at h
    dsimp only at h
    cases hmembers : findMembers? content with
    | none =>
      rw [hmembers] at h
      cases h
    | some members =>
      rw [hmembers] at h
      exact ⟨content, members, rfl, hmembers, planMembers_eq_ok h⟩

end CrateBump
