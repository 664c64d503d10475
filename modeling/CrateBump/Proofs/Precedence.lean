/-
# The order of versions

Canonical versions are compared as texts: number by number, by the count of digits and then digit by
digit.  Since they are written without leading zeros this is the order of the numbers themselves.  A
bump moves a version up in that order, except that a number at the limit of 64 bits starts again at
zero and moves it down.

Main statements: numerals are ordered as their values (`compareNumbers_compares`), canonical versions
as their numbers (`compare_render`), and a bump moves forward except exactly at the limit, to a
version that can always be tagged (`bumpVersion_moves_forward`).
-/
import Mathlib.Data.List.Lex
import Mathlib.Data.List.TakeWhile
import Mathlib.Order.Compare
import CrateBump.Proofs.AcceptedVersions
import CrateBump.Proofs.BumpRun

namespace CrateBump

/-! ## Comparing numerals -/

namespace Semver

open Decimal

theorem compareTexts_cons (a b : UInt8) (s t : Text) :
    compareTexts (a :: s) (b :: t)
      = if a < b then .lt else if b < a then .gt else compareTexts s t := by
  unfold compareTexts
  by_cases hab : a < b
  · simp [Text.le, hab, UInt8.ne_of_lt hab]
  by_cases hba : b < a
  · simp [Text.le, hab, hba, (UInt8.ne_of_lt hba).symm]
  obtain rfl := UInt8.le_antisymm (UInt8.not_lt.1 hba) (UInt8.not_lt.1 hab)
  simp [Text.le]

/-- Runs of as many digits are ordered byte by byte as their values. -/
theorem compareTexts_compares {s t : Text} (hs : ∀ b ∈ s, Text.isDigit b = true)
    (ht : ∀ b ∈ t, Text.isDigit b = true) (hlength : s.length = t.length) :
    (compareTexts s t).Compares (value s) (value t) := by
  induction s generalizing t with
  | nil =>
    obtain rfl := List.length_eq_zero_iff.1 hlength.symm
    exact rfl
  | cons a s ih =>
    cases t with
    | nil => cases hlength
    | cons b t =>
      rw [List.forall_mem_cons] at hs ht
      have hlength : s.length = t.length := Nat.succ.inj hlength
      rw [compareTexts_cons]
      split
      · next h => exact value_cons_lt hs.2 hlength ((digitValue_lt_iff hs.1 ht.1).1 h)
      split
      · next h => exact value_cons_lt ht.2 hlength.symm ((digitValue_lt_iff ht.1 hs.1).1 h)
      next h h' =>
      have heq : digitValue a = digitValue b := by
        rw [digitValue_lt_iff hs.1 ht.1] at h
        rw [digitValue_lt_iff ht.1 hs.1] at h'
        omega
      have hrest := ih hs.2 ht.2 hlength
      rw [value_cons, value_cons, heq, hlength]
      cases ho : compareTexts s t <;> rw [ho] at hrest
      · exact Nat.add_lt_add_left hrest _
      · exact congrArg _ hrest
      · exact Nat.add_lt_add_left hrest _

/-- Numerals are ordered as the numbers they stand for. -/
theorem compareNumbers_compares {s t : Text} (hs : IsNumeral s) (ht : IsNumeral t) :
    (compareNumbers s t).Compares (value s) (value t) := by
  unfold compareNumbers
  split
  · next h => exact value_lt_of_length_lt hs ht h
  split
  · next h => exact value_lt_of_length_lt ht hs h
  next h h' =>
  exact compareTexts_compares hs.digits ht.digits (by omega)

theorem compareNumbers_ofNat (m n : Nat) : (compareNumbers (ofNat m) (ofNat n)).Compares m n := by
  have h := compareNumbers_compares (isNumeral_ofNat m) (isNumeral_ofNat n)
  rwa [value_ofNat, value_ofNat] at h

/-! ## Canonical versions -/

/-- A numeral is read up to what is no digit. -/
theorem number?_append {s rest : Text} (hs : IsNumeral s)
    (hrest : ∀ b ∈ rest.head?, Text.isDigit b = false) : number? (s ++ rest) = some (s, rest) := by
  have hstop : rest.takeWhile Text.isDigit = [] ∧ rest.dropWhile Text.isDigit = rest := by
    cases rest with
    | nil => exact ⟨rfl, rfl⟩
    | cons b rest =>
      have hb : ¬ Text.isDigit b = true := by rw [hrest b rfl]; exact Bool.false_ne_true
      exact ⟨List.takeWhile_cons_of_neg hb, List.dropWhile_cons_of_neg hb⟩
  have htake : (s ++ rest).takeWhile Text.isDigit = s := by
    rw [List.takeWhile_append_of_pos hs.digits, hstop.1, List.append_nil]
  have hdrop : (s ++ rest).dropWhile Text.isDigit = rest := by
    rw [List.dropWhile_append_of_pos hs.digits, hstop.2]
  unfold number?
  rw [htake, hdrop]
  match s, hs with
  | [], hs => exact absurd rfl hs.ne_nil
  | [_], _ => rfl
  | b :: c :: s, hs =>
    have hb : ¬ (b == 48) = true := by
      intro heq
      have hnil := hs.alone (c :: s) (by rw [beq_iff_eq.1 heq])
      cases hnil
    simp only [if_neg hb]

theorem isValid_render (v : Triple) : isValid (118 :: v.render) = true := by
  have hdot : ∀ t : Text, ∀ b ∈ (dot :: t).head?, Text.isDigit b = false := by
    rintro t b ⟨⟩
    decide
  have hlast : number? (ofNat v.patch.toNat) = some (ofNat v.patch.toNat, []) := by
    have h : number? (ofNat v.patch.toNat ++ []) = some (ofNat v.patch.toNat, []) :=
      number?_append (isNumeral_ofNat _) (by simp)
    rwa [List.append_nil] at h
  rw [isValid, v.render_eq, number?_append (isNumeral_ofNat _) (hdot _)]
  simp only [dotNumber?, beq_self_eq_true, if_true, number?_append (isNumeral_ofNat _) (hdot _),
    hlast, isSuffix]

theorem parts?_render (v : Triple) :
    parts? (118 :: v.render)
      = some ⟨ofNat v.major.toNat, ofNat v.minor.toNat, ofNat v.patch.toNat, []⟩ := by
  have hdotted : IsDotted v.render := Triple.isDotted_of_parse v.parse_render
  have hkept : ∀ c : UInt8, Text.isDigit c = false → c ≠ dot → ∀ b ∈ v.render, (b != c) = true := by
    intro c hdigit hdot b hb
    rw [bne_iff_ne]
    rintro rfl
    exact hdotted.not_mem hdigit hdot hb
  have hbuild : v.render.takeWhile (· != 43) = v.render :=
    List.takeWhile_eq_self_iff.2 (hkept 43 (by decide) (by decide))
  have hcore : v.render.takeWhile (· != 45) = v.render :=
    List.takeWhile_eq_self_iff.2 (hkept 45 (by decide) (by decide))
  have hpre : v.render.dropWhile (· != 45) = [] :=
    List.dropWhile_eq_nil_iff.2 (hkept 45 (by decide) (by decide))
  have hsplit : Text.splitOn dot v.render
      = [ofNat v.major.toNat, ofNat v.minor.toNat, ofNat v.patch.toNat] := by
    rw [v.render_eq, Triple.splitOn_dotted (dot_not_mem_ofNat _) (dot_not_mem_ofNat _)
      (dot_not_mem_ofNat _)]
  unfold parts?
  rw [if_pos (isValid_render v)]
  simp only [List.drop_succ_cons, List.drop_zero, hbuild, hcore, hpre, hsplit, List.drop_nil,
    List.isEmpty_nil, if_true]

end Semver

/-! ## The order of versions -/

/-- The three numbers in order. -/
def Triple.numbers (v : Triple) : List Nat := [v.major.toNat, v.minor.toNat, v.patch.toNat]

theorem Triple.numbers_lt_iff {v w : Triple} :
    v.numbers < w.numbers
      ↔ v.major.toNat < w.major.toNat
        ∨ v.major.toNat = w.major.toNat ∧ (v.minor.toNat < w.minor.toNat
          ∨ v.minor.toNat = w.minor.toNat ∧ v.patch.toNat < w.patch.toNat) := by
  simp only [numbers, List.cons_lt_cons_iff, List.not_lt_nil, and_false, or_false]

/-- Comparison number by number is the lexicographic order. -/
theorem compares_cons {o o' : Ordering} {a b : Nat} {s t : List Nat} (h : o.Compares a b)
    (h' : o'.Compares s t) : (o.then o').Compares (a :: s) (b :: t) := by
  cases o with
  | lt => exact List.cons_lt_cons_iff.2 (.inl h)
  | gt => exact List.cons_lt_cons_iff.2 (.inl h)
  | eq =>
    obtain rfl : a = b := h
    cases o' with
    | lt => exact List.cons_lt_cons_iff.2 (.inr ⟨rfl, h'⟩)
    | gt => exact List.cons_lt_cons_iff.2 (.inr ⟨rfl, h'⟩)
    | eq => exact congrArg _ h'

/-- Canonical versions are ordered as their numbers. -/
theorem Semver.compare_render (v w : Triple) :
    (Semver.compare (118 :: v.render) (118 :: w.render)).Compares v.numbers w.numbers := by
  unfold Semver.compare
  rw [parts?_render, parts?_render]
  exact compares_cons (compareNumbers_ofNat _ _) <| compares_cons (compareNumbers_ofNat _ _) <|
    compares_cons (compareNumbers_ofNat _ _) rfl

theorem canonical_of_parse {version : Text} {v : Triple} (h : Triple.parse version = .ok v) :
    canonical version = .ok (118 :: v.render) := by
  simp only [canonical, h]

/-- Versions are ordered as their numbers, whatever zeros they start with. -/
theorem versionOrder_compares {s t : Text} {v w : Triple} (hv : Triple.parse s = .ok v)
    (hw : Triple.parse t = .ok w) : (versionOrder s t).Compares v.numbers w.numbers := by
  unfold versionOrder canonicalOrEmpty
  rw [canonical_of_parse hv, canonical_of_parse hw]
  exact Semver.compare_render v w

theorem versionOrder_self {t : Text} {v : Triple} (h : Triple.parse t = .ok v) :
    versionOrder t t = .eq :=
  (versionOrder_compares h h).eq_eq.2 rfl

/-! ## Moving forward -/

namespace Triple

/-- The number that a kind increments; a kind that names no component has none. -/
def incremented (v : Triple) : Kind → Nat
  | .major => v.major.toNat
  | .minor => v.minor.toNat
  | .patch => v.patch.toNat
  | .unknown _ => 0

theorem incremented_le (v : Triple) (kind : Kind) : v.incremented kind ≤ 2 ^ 64 - 1 := by
  have hlt : v.incremented kind < 2 ^ 64 := by
    cases kind with
    | major => exact v.major.toNat_lt
    | minor => exact v.minor.toNat_lt
    | patch => exact v.patch.toNat_lt
    | unknown code => exact Nat.two_pow_pos 64
  exact Nat.le_sub_one_of_lt hlt

/-- A bump moves up unless the number it increments is the last one, and down if it is. -/
theorem numbers_bump {v bumped : Triple} {kind : Kind} (h : v.bump kind = some bumped) :
    (v.incremented kind < 2 ^ 64 - 1 → v.numbers < bumped.numbers)
      ∧ (v.incremented kind = 2 ^ 64 - 1 → bumped.numbers < v.numbers) := by
  cases kind with
  | unknown code => cases h
  | _ =>
    obtain rfl := Option.some.inj h
    simp only [incremented, numbers_lt_iff, toNat_add_one, UInt64.toNat_zero, true_and]
    omega

end Triple

/-! ## Tags -/

section Tags

variable {host : Host} {ws : Workspace} {options : BumpOptions}

theorem relativePaths_ne_invalidTag {wt : Git.Worktree} {env : Environment} {fs : FileSystem}
    {paths : List Text} {t : Text} :
    Git.relativePaths wt env fs paths ≠ .error (.invalidTag t) := by
  intro h
  obtain ⟨_, _, _, _, he⟩ := Git.relativePaths_eq_error h
  cases he

theorem checkClean_ne_invalidTag {w : World} {root t : Text} {allowed : List Text} :
    Git.checkClean host w root allowed ≠ .error (.invalidTag t) := by
  unfold Git.checkClean
  intro h
  split at h
  · cases h
  split at h
  · next e hpaths =>
    obtain rfl := Except.error.inj h
    exact relativePaths_ne_invalidTag hpaths
  dsimp only at h
  split at h
  · cases h
  split at h <;> cases h

/-- A valid tag is not refused as invalid. -/
theorem commitRelease_ne_invalidTag {w : World} {root version t : Text} {paths : List Text}
    {tag : Bool} (hvalid : Semver.isValid (Git.tagFor version) = true) :
    (Git.commitRelease host w root paths version tag).error? ≠ some (.invalidTag t) := by
  unfold Git.commitRelease Git.tagRelease
  dsimp only
  rw [if_neg (by simp [hvalid])]
  split
  · exact fun h => by cases h
  split
  · next e hpaths =>
    intro h
    obtain rfl := Option.some.inj h
    exact relativePaths_ne_invalidTag hpaths
  repeat' split
  all_goals exact fun h => by cases h

/-- The tag of a release is made of the version that the first change leads to. -/
theorem writeStage_ne_invalidTag {before : BumpOutcome} {c : Change} {rest : List Change} {t : Text}
    (hbefore : before.error? = none) (hchanges : before.changes = c :: rest)
    (hvalid : Semver.isValid (Git.tagFor c.newVersion) = true) :
    (writeStage host ws options before).error? ≠ some (.release (.invalidTag t)) := by
  unfold writeStage releaseStage
  dsimp only
  rw [hchanges]
  split
  · exact fun h => by cases h
  split
  · dsimp only [List.head?_cons, Option.map_some, Option.getD_some]
    split
    · next e herror =>
      intro h
      obtain rfl := BumpError.release.inj (Option.some.inj h)
      exact commitRelease_ne_invalidTag hvalid herror
    · rw [hbefore]
      exact fun h => by cases h
  · rw [hbefore]
    exact fun h => by cases h

end Tags

/-- The root is the first of the changes of a plan. -/
theorem plan_eq_cons {ws : Workspace} {fs : FileSystem} {kind : Kind} {changes : List Change}
    (h : plan ws fs kind = .ok changes) :
    ∃ root rest, changes = root :: rest ∧ root.member = Workspace.rootMember
      ∧ Planned ws fs kind root := by
  obtain ⟨content, members, -, -, hmembers, hplanned⟩ := plan_eq_ok h
  cases changes with
  | nil => cases hmembers
  | cons root rest =>
    exact ⟨root, rest, rfl, (List.cons.inj hmembers).1, hplanned root List.mem_cons_self⟩

/-- What a bump writes makes a valid tag. -/
theorem isValid_tagFor_bumpVersion {old new : Text} {kind : Kind}
    (h : bumpVersion old kind = .ok new) : Semver.isValid (Git.tagFor new) = true := by
  obtain ⟨-, bumped, -, -, rfl⟩ := bumpVersion_eq_ok_iff.1 h
  exact Semver.isValid_render bumped

/-- No bump ends because its version makes no valid tag. -/
theorem bump_ne_invalidTag (host : Host) (ws : Workspace) (prompter : Prompter)
    (options : BumpOptions) (kind : Kind) (w : World) (t : Text) :
    (bump host ws prompter options kind w).error? ≠ some (.release (.invalidTag t)) := by
  have hends := bumpEnds_bump host ws prompter options kind w
  generalize bump host ws prompter options kind w = o at hends ⊢
  cases hends with
  | unplanned hplan => exact fun h => by cases h
  | dryRun hplan hdry out => exact fun h => by cases h
  | @unclean changes hplan hdry e hcheck =>
    intro h
    obtain rfl := BumpError.release.inj (Option.some.inj h)
    unfold releaseCheck at hcheck
    split at hcheck
    · exact checkClean_ne_invalidTag hcheck
    · cases hcheck
  | failed hplan hdry hcheck hreply => exact fun h => by cases h
  | declined hplan hdry hcheck hreply out => exact fun h => by cases h
  | written hplan hdry hcheck hreply =>
    obtain ⟨root, rest, rfl, -, hroot⟩ := plan_eq_cons hplan
    exact writeStage_ne_invalidTag rfl rfl (isValid_tagFor_bumpVersion hroot.new)

/-- **A bump moves a version forward, except exactly at the limit of 64 bits.**  Both versions have
canonical forms; compared by these the new one is above the old one if the number that is incremented
is below 2^64 - 1, and below it if it is that number, so the text is never the same.  With a `v`
before it the new version is always a valid tag, so no bump ends because it is not. -/
theorem bumpVersion_moves_forward {version new : Text} {kind : Kind}
    (h : bumpVersion version kind = .ok new) :
    (∃ v before after, Triple.parse version = .ok v ∧ canonical version = .ok before
        ∧ canonical new = .ok after
        ∧ (v.incremented kind < 18446744073709551615 → signOf (Semver.compare after before) = 1)
        ∧ (v.incremented kind = 18446744073709551615 → signOf (Semver.compare after before) = -1))
      ∧ new ≠ version
      ∧ Semver.isValid (Git.tagFor new) = true
      ∧ ∀ host ws prompter options runKind w tag,
        (bump host ws prompter options runKind w).error? ≠ some (.release (.invalidTag tag)) := by
  obtain ⟨v, bumped, hparse, hbump, rfl⟩ := bumpVersion_eq_ok_iff.1 h
  obtain ⟨hup, hdown⟩ := Triple.numbers_bump hbump
  have hcompares := Semver.compare_render bumped v
  refine ⟨⟨v, _, _, hparse, canonical_of_parse hparse, canonical_of_parse bumped.parse_render,
    fun hlt => ?_, fun hlast => ?_⟩, ?_, isValid_tagFor_bumpVersion h, bump_ne_invalidTag⟩
  · rw [hcompares.eq_gt.2 (hup hlt)]
    rfl
  · rw [hcompares.eq_lt.2 (hdown hlast)]
    rfl
  · rintro rfl
    obtain rfl : bumped = v := by
      rw [bumped.parse_render] at hparse
      exact Except.ok.inj hparse
    have hlimit : bumped.incremented kind ≤ 2 ^ 64 - 1 := bumped.incremented_le kind
    rcases Nat.lt_or_eq_of_le hlimit with hlt | hlast
    · exact List.lt_irrefl _ (hup hlt)
    · exact List.lt_irrefl _ (hdown hlast)

/-- At the limit a minor bump goes back. -/
theorem bumpVersion_moves_forward_limit :
    bumpVersion (ascii "1.018446744073709551615.3") .minor = .ok (ascii "1.0.0")
      ∧ ∃ before after, canonical (ascii "1.018446744073709551615.3") = .ok before
        ∧ canonical (ascii "1.0.0") = .ok after ∧ signOf (Semver.compare after before) = -1 := by
  have hbump : bumpVersion (ascii "1.018446744073709551615.3") .minor = .ok (ascii "1.0.0") := by
    decide
  have hparse : Triple.parse (ascii "1.018446744073709551615.3")
      = .ok ⟨1, 18446744073709551615, 3⟩ := by
    decide
  obtain ⟨⟨v, before, after, hv, hbefore, hafter, -, hdown⟩, -⟩ := bumpVersion_moves_forward hbump
  rw [hparse] at hv
  obtain rfl := Except.ok.inj hv
  exact ⟨hbump, before, after, hbefore, hafter, hdown rfl⟩

end CrateBump
