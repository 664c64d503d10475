/-
# Which versions are accepted, and what becomes of them

A version is accepted if it is three runs of digits with dots between them, each of them standing for
a number below 2^64.  What a bump writes are the numbers as they are written everywhere, without
leading zeros, and it is accepted again.

Main statements: the digit loop and the split at dots read exactly these texts (`parse_iff_readsAs`),
versions are written as usual (`render_eq_versionText`), and so a bump accepts exactly its grammar and
follows exactly its rule (`bumpVersion_accepts_exactly`).
-/
import CrateBump.Proofs.BumpedVersion

namespace CrateBump

/-! ## The grammar -/

/-- A run of digits, leading zeros allowed, that stands for a number below 2^64. -/
structure Component (t : Text) (n : Nat) : Prop where
  ne_nil : t ≠ []
  digits : ∀ b ∈ t, Text.isDigit b = true
  value : Nat.ofDigits 10 (t.map Decimal.digitValue).reverse = n
  fits : n < 2 ^ 64

/-- Three components with dots between them. -/
def ReadsAs (version : Text) (a b c : Nat) : Prop :=
  ∃ x y z, version = x ++ dot :: (y ++ dot :: z) ∧ Component x a ∧ Component y b ∧ Component z c

/-- A version that is accepted. -/
def IsTriplet (version : Text) : Prop := ∃ a b c, ReadsAs version a b c

theorem component_iff {t : Text} {n : UInt64} :
    Component t n.toNat ↔ Triple.number? t = some n := by
  rw [Triple.number?_eq_some_iff, Decimal.value_eq_ofDigits]
  exact ⟨fun h => ⟨h.ne_nil, h.digits, h.value⟩,
    fun h => ⟨h.1, h.2.1, h.2.2, n.toNat_lt⟩⟩

/-- A component fits a word. -/
theorem Component.exists_word {t : Text} {n : Nat} (h : Component t n) :
    ∃ w : UInt64, w.toNat = n :=
  ⟨UInt64.ofNat n, UInt64.toNat_ofNat_of_lt' h.fits⟩

namespace Triple

theorem parse_iff_readsAs {version : Text} {v : Triple} :
    parse version = .ok v ↔ ReadsAs version v.major.toNat v.minor.toNat v.patch.toNat := by
  simp only [parse_eq_ok_iff, ReadsAs, component_iff]

/-- The numbers of an accepted version fit words. -/
theorem exists_parse_of_readsAs {version : Text} {a b c : Nat} (h : ReadsAs version a b c) :
    ∃ v : Triple, parse version = .ok v
      ∧ v.major.toNat = a ∧ v.minor.toNat = b ∧ v.patch.toNat = c := by
  obtain ⟨x, y, z, hversion, hx, hy, hz⟩ := h
  obtain ⟨major, rfl⟩ := hx.exists_word
  obtain ⟨minor, rfl⟩ := hy.exists_word
  obtain ⟨patch, rfl⟩ := hz.exists_word
  exact ⟨⟨major, minor, patch⟩, parse_iff_readsAs.2 ⟨x, y, z, hversion, hx, hy, hz⟩, rfl, rfl, rfl⟩

theorem parse_error_cause {version : Text} {e : VersionError} (h : parse version = .error e) :
    e.cause = .versionFormat := by
  unfold parse at h
  split at h
  · split at h
    · cases h
    all_goals obtain rfl := Except.error.inj h; rfl
  · obtain rfl := Except.error.inj h
    rfl

end Triple

/-- A version that can be bumped is one of the grammar. -/
theorem bumpable_iff_isTriplet {version : Text} : Bumpable version ↔ IsTriplet version := by
  constructor
  · rintro ⟨v, hv⟩
    exact ⟨_, _, _, Triple.parse_iff_readsAs.1 hv⟩
  · rintro ⟨a, b, c, h⟩
    obtain ⟨v, hv, -⟩ := Triple.exists_parse_of_readsAs h
    exact ⟨v, hv⟩

/-! ## The rule -/

/-- Three numbers as a version, without leading zeros. -/
def versionText (a b c : Nat) : Text :=
  ascii (toString a ++ "." ++ toString b ++ "." ++ toString c)

theorem Triple.render_eq_versionText (v : Triple) :
    v.render = versionText v.major.toNat v.minor.toNat v.patch.toNat := by
  have hdot : ascii "." = [dot] := by decide
  rw [render, Decimal.ofNat_eq_ascii, Decimal.ofNat_eq_ascii, Decimal.ofNat_eq_ascii, ← hdot,
    ← ascii_append, ← ascii_append, ← ascii_append, ← ascii_append, versionText]

theorem Kind.isKnown_ofCode {code : Int} :
    (Kind.ofCode code).isKnown = true ↔ code = 1 ∨ code = 2 ∨ code = 3 := by
  unfold Kind.ofCode
  split
  · next h => simp [h, Kind.isKnown]
  · split
    · next h => simp [h, Kind.isKnown]
    · split
      · next h => simp [h, Kind.isKnown]
      · simp_all [Kind.isKnown]

/-- What a bump refuses, and why. -/
theorem bumpVersion_error {version : Text} {kind : Kind} {e : VersionError}
    (h : bumpVersion version kind = .error e) :
    (e.cause = .versionFormat ∧ ¬ IsTriplet version)
      ∨ (e.cause = .invalidKind ∧ IsTriplet version ∧ kind.isKnown = false) := by
  unfold bumpVersion at h
  split at h
  · next e' hparse =>
    obtain rfl := Except.error.inj h
    refine .inl ⟨Triple.parse_error_cause hparse, fun htriplet => ?_⟩
    obtain ⟨v, hv⟩ := bumpable_iff_isTriplet.2 htriplet
    rw [hparse] at hv
    cases hv
  · next v hparse =>
    split at h
    · cases h
    · next hbump =>
      obtain rfl := Except.error.inj h
      refine .inr ⟨rfl, bumpable_iff_isTriplet.1 ⟨v, hparse⟩, ?_⟩
      rw [← Bool.not_eq_true]
      intro hknown
      obtain ⟨bumped, hsome⟩ := Triple.exists_bump hknown v
      rw [hbump] at hsome
      cases hsome

theorem toNat_add_one (n : UInt64) : (n + 1).toNat = (n.toNat + 1) % 2 ^ 64 := by
  rw [UInt64.toNat_add]
  rfl

/-- The rule: one number up by one, round the word, and zeros behind it. -/
theorem bumpVersion_of_readsAs {version : Text} {a b c : Nat} (h : ReadsAs version a b c) :
    bumpVersion version .major = .ok (versionText ((a + 1) % 2 ^ 64) 0 0)
      ∧ bumpVersion version .minor = .ok (versionText a ((b + 1) % 2 ^ 64) 0)
      ∧ bumpVersion version .patch = .ok (versionText a b ((c + 1) % 2 ^ 64)) := by
  obtain ⟨v, hv, rfl, rfl, rfl⟩ := Triple.exists_parse_of_readsAs h
  simp only [bumpVersion, hv, Triple.bump, Triple.render_eq_versionText, toNat_add_one,
    UInt64.toNat_zero, and_self]

/-- **A bump accepts exactly its grammar and follows exactly its rule.**  It succeeds for three
components with dots between them and the kinds 1, 2 and 3.  Then it has put the incremented number,
modulo 2^64, in its place, zeros behind it, and has written all three without leading zeros; what it
wrote can be bumped again.  A malformed version is refused for its format whatever the kind, and only
a well-formed one for its kind. -/
theorem bumpVersion_accepts_exactly (version : Text) (code : Int) :
    let result := bumpVersion version (Kind.ofCode code)
    ((∃ new, result = .ok new) ↔ IsTriplet version ∧ (code = 1 ∨ code = 2 ∨ code = 3))
      ∧ (∀ a b c, ReadsAs version a b c →
        (code = 1 → result = .ok (versionText ((a + 1) % 2 ^ 64) 0 0))
          ∧ (code = 2 → result = .ok (versionText a ((b + 1) % 2 ^ 64) 0))
          ∧ (code = 3 → result = .ok (versionText a b ((c + 1) % 2 ^ 64))))
      ∧ (¬ IsTriplet version → ∃ e, result = .error e ∧ e.cause = .versionFormat)
      ∧ (∀ e, result = .error e → e.cause = .invalidKind →
        IsTriplet version ∧ ¬ (code = 1 ∨ code = 2 ∨ code = 3))
      ∧ ∀ new, result = .ok new → IsTriplet new
        ∧ ∀ again, (again = 1 ∨ again = 2 ∨ again = 3) →
          ∃ newer, bumpVersion new (Kind.ofCode again) = .ok newer := by
  intro result
  refine ⟨⟨?_, ?_⟩, ?_, ?_, ?_, ?_⟩
  · rintro ⟨new, hnew⟩
    obtain ⟨hold, hknown, -⟩ := bumpVersion_eq_ok hnew
    exact ⟨bumpable_iff_isTriplet.1 hold, Kind.isKnown_ofCode.1 hknown⟩
  · rintro ⟨htriplet, hcode⟩
    exact bumpVersion_of_bumpable (bumpable_iff_isTriplet.2 htriplet) (Kind.isKnown_ofCode.2 hcode)
  · intro a b c h
    obtain ⟨hmajor, hminor, hpatch⟩ := bumpVersion_of_readsAs h
    refine ⟨?_, ?_, ?_⟩
    · rintro rfl
      exact hmajor
    · rintro rfl
      exact hminor
    · rintro rfl
      exact hpatch
  · intro hmalformed
    cases hresult : result with
    | ok new => exact absurd (bumpable_iff_isTriplet.1 (bumpVersion_eq_ok hresult).1) hmalformed
    | error e =>
      rcases bumpVersion_error hresult with ⟨hcause, -⟩ | ⟨-, htriplet, -⟩
      · exact ⟨e, rfl, hcause⟩
      · exact absurd htriplet hmalformed
  · intro e hresult hcause
    rcases bumpVersion_error hresult with ⟨hformat, -⟩ | ⟨-, htriplet, hunknown⟩
    · rw [hcause] at hformat
      cases hformat
    · refine ⟨htriplet, fun hcode => ?_⟩
      rw [Kind.isKnown_ofCode.2 hcode] at hunknown
      cases hunknown
  · intro new hnew
    have hbumpable := bumpable_of_bumpVersion hnew
    exact ⟨bumpable_iff_isTriplet.1 hbumpable,
      fun again hagain => bumpVersion_of_bumpable hbumpable (Kind.isKnown_ofCode.2 hagain)⟩

example : bumpVersion (ascii "007.0018446744073709551615.3") .minor = .ok (ascii "7.0.0") := by
  decide

example : bumpVersion (ascii "1.18446744073709551616.3") (.unknown 4)
    = .error (.number (ascii "18446744073709551616") (ascii "1.18446744073709551616.3")) := by
  decide

end CrateBump
