/-
# Bumped versions

A version that can be bumped consists of digits and dots.  What a bump writes is read back as the
three numbers it was written from, so it can be bumped again, however often.

Main statements: reading what was written gives the three numbers back (`parse_render`), and a bump
fails on a version that can be bumped only if the kind names no component (`bumpVersion_of_bumpable`).
-/
import CrateBump.Proofs.Numerals
import CrateBump.Proofs.Planning

namespace CrateBump

/-! ## Digits and dots -/

/-- Only digits and dots. -/
def IsDotted (w : Text) : Prop := ∀ b ∈ w, Text.isDigit b = true ∨ b = dot

instance (w : Text) : Decidable (IsDotted w) :=
  List.decidableBAll (fun b => Text.isDigit b = true ∨ b = dot) w

theorem IsDotted.append {s t : Text} (hs : IsDotted s) (ht : IsDotted t) : IsDotted (s ++ t) := by
  intro b hb
  rcases List.mem_append.1 hb with hb | hb
  · exact hs b hb
  · exact ht b hb

theorem isDotted_dot : IsDotted [dot] := by
  intro b hb
  exact Or.inr (List.mem_singleton.1 hb)

theorem isDotted_of_digits {t : Text} (h : ∀ b ∈ t, Text.isDigit b = true) : IsDotted t :=
  fun b hb => Or.inl (h b hb)

/-- A byte that is neither a digit nor a dot does not occur. -/
theorem IsDotted.not_mem {w : Text} (h : IsDotted w) {b : UInt8} (hdigit : Text.isDigit b = false)
    (hdot : b ≠ dot) : b ∉ w := by
  intro hb
  rcases h b hb with hb | hb
  · rw [hdigit] at hb
    cases hb
  · exact hdot hb

/-- Digits and dots may be written as a version. -/
theorem IsDotted.isVersionText {w : Text} (h : IsDotted w) : IsVersionText w :=
  isVersionText_iff.2 ⟨h.not_mem (by decide) (by decide), h.not_mem (by decide) (by decide)⟩

/-! ## Reading what was written -/

theorem dot_not_mem_ofNat (n : Nat) : dot ∉ Decimal.ofNat n := by
  intro h
  exact absurd (Decimal.isDigit_of_mem_ofNat h) (by decide)

namespace Triple

/-- A number that was written is read back. -/
theorem number?_ofNat (n : UInt64) : number? (Decimal.ofNat n.toNat) = some n :=
  number?_eq_some_iff.2 ⟨Decimal.ofNat_ne_nil _, fun _ hb => Decimal.isDigit_of_mem_ofNat hb,
    Decimal.value_ofNat _⟩

/-- A number is read from digits only. -/
theorem digits_of_number? {part : Text} {n : UInt64} (h : number? part = some n) :
    ∀ b ∈ part, Text.isDigit b = true :=
  (number?_eq_some_iff.1 h).2.1

theorem dot_not_mem_of_number? {part : Text} {n : UInt64} (h : number? part = some n) :
    dot ∉ part := fun hdot => absurd (digits_of_number? h dot hdot) (by decide)

/-- Three parts between dots are the parts of the text. -/
theorem splitOn_dotted {x y z : Text} (hx : dot ∉ x) (hy : dot ∉ y) (hz : dot ∉ z) :
    Text.splitOn dot (x ++ dot :: (y ++ dot :: z)) = [x, y, z] := by
  rw [Text.splitOn_append_cons, Text.splitOn_append_cons, Text.splitOn_of_not_mem hx,
    Text.splitOn_of_not_mem hy, Text.splitOn_of_not_mem hz]
  rfl

/-- The texts that are read as three numbers are three numbers with dots between them. -/
theorem parse_eq_ok_iff {version : Text} {v : Triple} :
    parse version = .ok v
      ↔ ∃ x y z, version = x ++ dot :: (y ++ dot :: z) ∧ number? x = some v.major
        ∧ number? y = some v.minor ∧ number? z = some v.patch := by
  constructor
  · intro h
    unfold parse at h
    split at h
    case h_2 => cases h
    next x y z hsplit =>
    split at h
    case h_1 major minor patch hx hy hz =>
      obtain rfl := Except.ok.inj h
      refine ⟨x, y, z, ?_, hx, hy, hz⟩
      rw [← Text.joinWith_splitOn dot version, hsplit]
      simp [Text.joinWith]
    all_goals cases h
  · rintro ⟨x, y, z, rfl, hx, hy, hz⟩
    have hsplit := splitOn_dotted (dot_not_mem_of_number? hx) (dot_not_mem_of_number? hy)
      (dot_not_mem_of_number? hz)
    simp only [parse, hsplit, hx, hy, hz]

/-- A triple is written as its numbers between dots. -/
theorem render_eq (v : Triple) :
    v.render = Decimal.ofNat v.major.toNat
      ++ dot :: (Decimal.ofNat v.minor.toNat ++ dot :: Decimal.ofNat v.patch.toNat) := by
  simp [render]

/-- Reading what was written gives the three numbers back. -/
theorem parse_render (v : Triple) : parse v.render = .ok v :=
  parse_eq_ok_iff.2 ⟨_, _, _, v.render_eq, number?_ofNat _, number?_ofNat _, number?_ofNat _⟩

/-- A text that is read as three numbers has digits and dots only. -/
theorem isDotted_of_parse {version : Text} {v : Triple} (h : parse version = .ok v) :
    IsDotted version := by
  obtain ⟨x, y, z, rfl, hx, hy, hz⟩ := parse_eq_ok_iff.1 h
  have hdigits := @digits_of_number?
  exact (isDotted_of_digits (hdigits hx)).append <| isDotted_dot.append <|
    (isDotted_of_digits (hdigits hy)).append <| isDotted_dot.append <|
      isDotted_of_digits (hdigits hz)

end Triple

/-! ## Bumping again -/

/-- Whether a kind names a component. -/
def Kind.isKnown : Kind → Bool
  | .unknown _ => false
  | _ => true

/-- Every kind that is known has a bump. -/
theorem Triple.exists_bump {kind : Kind} (h : kind.isKnown = true) (v : Triple) :
    ∃ bumped, v.bump kind = some bumped := by
  cases kind with
  | major => exact ⟨_, rfl⟩
  | minor => exact ⟨_, rfl⟩
  | patch => exact ⟨_, rfl⟩
  | unknown code => cases h

/-- A version that is read as three numbers. -/
def Bumpable (version : Text) : Prop := ∃ v, Triple.parse version = .ok v

/-- No other kind has one. -/
theorem Triple.isKnown_of_bump {v bumped : Triple} {kind : Kind} (h : v.bump kind = some bumped) :
    kind.isKnown = true := by
  cases kind with
  | unknown code => cases h
  | major => rfl
  | minor => rfl
  | patch => rfl

/-- A bump reads three numbers, increments one of them and writes them again. -/
theorem bumpVersion_eq_ok_iff {old new : Text} {kind : Kind} :
    bumpVersion old kind = .ok new
      ↔ ∃ v bumped : Triple, Triple.parse old = .ok v ∧ v.bump kind = some bumped
        ∧ new = bumped.render := by
  constructor
  · intro h
    unfold bumpVersion at h
    split at h
    · cases h
    next v hparse =>
    split at h
    · next bumped hbump => exact ⟨v, bumped, hparse, hbump, (Except.ok.inj h).symm⟩
    · cases h
  · rintro ⟨v, bumped, hparse, hbump, rfl⟩
    simp only [bumpVersion, hparse, hbump]

/-- A version that was bumped could be, and what came out is a triple again. -/
theorem bumpVersion_eq_ok {old new : Text} {kind : Kind} (h : bumpVersion old kind = .ok new) :
    Bumpable old ∧ kind.isKnown = true ∧ ∃ v : Triple, new = v.render := by
  obtain ⟨v, bumped, hparse, hbump, hnew⟩ := bumpVersion_eq_ok_iff.1 h
  exact ⟨⟨v, hparse⟩, Triple.isKnown_of_bump hbump, bumped, hnew⟩

/-- What was bumped can be bumped again. -/
theorem bumpable_of_bumpVersion {old new : Text} {kind : Kind}
    (h : bumpVersion old kind = .ok new) : Bumpable new := by
  obtain ⟨-, -, v, rfl⟩ := bumpVersion_eq_ok h
  exact ⟨v, v.parse_render⟩

theorem Bumpable.isDotted {version : Text} (h : Bumpable version) : IsDotted version := by
  obtain ⟨v, hv⟩ := h
  exact Triple.isDotted_of_parse hv

/-- A bump fails only for a kind that names no component. -/
theorem bumpVersion_of_bumpable {version : Text} (h : Bumpable version) {kind : Kind}
    (hkind : kind.isKnown = true) : ∃ new, bumpVersion version kind = .ok new := by
  obtain ⟨v, hv⟩ := h
  obtain ⟨bumped, hbump⟩ := Triple.exists_bump hkind v
  exact ⟨bumped.render, bumpVersion_eq_ok_iff.2 ⟨v, bumped, hv, hbump, rfl⟩⟩

end CrateBump
