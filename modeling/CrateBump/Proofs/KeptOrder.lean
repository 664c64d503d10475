/-
# Bumps keep the order

Two versions that are bumped by the same kind, neither of them at the limit of 64 bits, compare
afterwards as they did before on the numbers down to the incremented one; what stands behind it is
cleared.  So a bump of a workspace never turns a member that is behind into one that is ahead.

Main statement: the order of the results is the order of the numbers that are kept
(`bumpVersion_keeps_order`).
-/
import CrateBump.Proofs.Drift

namespace CrateBump

/-! ## Numbers that are kept -/

/-- How many numbers a kind of bump keeps or increments; it clears those behind them. -/
def Kind.depth : Kind → Nat
  | major => 1
  | minor => 2
  | patch => 3
  | unknown _ => 0

/-- A list that is smaller within its first elements is smaller. -/
theorem lt_of_take_lt {n : Nat} {s t : List Nat} (h : s.take n < t.take n) : s < t := by
  induction n generalizing s t with
  | zero => exact absurd h (List.not_lt_nil _)
  | succ n ih =>
    cases t with
    | nil => exact absurd h (List.not_lt_nil _)
    | cons b t =>
      cases s with
      | nil => exact List.nil_lt_cons _ _
      | cons a s =>
        rw [List.take_succ_cons, List.take_succ_cons, List.cons_lt_cons_iff] at h
        refine List.cons_lt_cons_iff.2 (h.imp_right fun hrest => ⟨hrest.1, ih hrest.2⟩)

namespace Triple

variable {kind : Kind} {v w bumpedV bumpedW : Triple}

/-- Below the limit the results are ordered as the numbers that are kept or incremented. -/
theorem numbers_bump_lt_iff (hv : v.bump kind = some bumpedV) (hw : w.bump kind = some bumpedW)
    (hvlimit : v.incremented kind < 2 ^ 64 - 1) (hwlimit : w.incremented kind < 2 ^ 64 - 1) :
    bumpedV.numbers < bumpedW.numbers ↔ v.numbers.take kind.depth < w.numbers.take kind.depth := by
  cases kind with
  | unknown code => cases hv
  | _ =>
    obtain rfl := Option.some.inj hv
    obtain rfl := Option.some.inj hw
    simp only [incremented] at hvlimit hwlimit
    simp only [toNat_add_one, numbers, Kind.depth, List.take_succ_cons, List.take_zero,
      List.cons_lt_cons_iff, List.not_lt_nil, and_false, or_false]
    omega

theorem numbers_injective (h : v.numbers = w.numbers) : v = w := by
  obtain ⟨major, minor, patch⟩ := v
  simp only [numbers, List.cons.injEq, UInt64.toNat_inj, and_true] at h
  obtain ⟨rfl, rfl, rfl⟩ := h
  rfl

theorem numbers_bump_eq_iff (hv : v.bump kind = some bumpedV) (hw : w.bump kind = some bumpedW)
    (hvlimit : v.incremented kind < 2 ^ 64 - 1) (hwlimit : w.incremented kind < 2 ^ 64 - 1) :
    bumpedV.numbers = bumpedW.numbers ↔ v.numbers.take kind.depth = w.numbers.take kind.depth := by
  cases kind with
  | unknown code => cases hv
  | _ =>
    obtain rfl := Option.some.inj hv
    obtain rfl := Option.some.inj hw
    simp only [incremented] at hvlimit hwlimit
    simp only [toNat_add_one, numbers, Kind.depth, List.take_succ_cons, List.take_zero,
      List.cons.injEq, and_true]
    omega

theorem numbers_bump_compares_iff {o : Ordering} (hv : v.bump kind = some bumpedV)
    (hw : w.bump kind = some bumpedW) (hvlimit : v.incremented kind < 2 ^ 64 - 1)
    (hwlimit : w.incremented kind < 2 ^ 64 - 1) :
    o.Compares bumpedV.numbers bumpedW.numbers
      ↔ o.Compares (v.numbers.take kind.depth) (w.numbers.take kind.depth) := by
  cases o with
  | lt => exact numbers_bump_lt_iff hv hw hvlimit hwlimit
  | eq => exact numbers_bump_eq_iff hv hw hvlimit hwlimit
  | gt => exact numbers_bump_lt_iff hw hv hwlimit hvlimit

end Triple

/-! ## The order of results -/

/-- A version is read as three numbers and bumped, and the number that is incremented is not the last
one that fits a word. -/
structure BumpsWithin (kind : Kind) (old new : Text) (v : Triple) : Prop where
  read : Triple.parse old = .ok v
  bumped : bumpVersion old kind = .ok new
  within : v.incremented kind ≠ 18446744073709551615

theorem BumpsWithin.exists_bump {kind : Kind} {old new : Text} {v : Triple}
    (h : BumpsWithin kind old new v) :
    ∃ bumped : Triple, v.bump kind = some bumped ∧ Triple.parse new = .ok bumped
      ∧ v.incremented kind < 2 ^ 64 - 1 := by
  obtain ⟨w, bumped, hparse, hbump, rfl⟩ := bumpVersion_eq_ok_iff.1 h.bumped
  obtain rfl : v = w := by
    rw [h.read] at hparse
    exact Except.ok.inj hparse
  exact ⟨bumped, hbump, bumped.parse_render, lt_of_le_of_ne (v.incremented_le kind) h.within⟩

section Order

variable {kind : Kind} {u v u' v' : Text} {a b : Triple}

/-- The results compare as the numbers that are kept or incremented. -/
theorem BumpsWithin.compares (hu : BumpsWithin kind u u' a) (hv : BumpsWithin kind v v' b) :
    (versionOrder u' v').Compares (a.numbers.take kind.depth) (b.numbers.take kind.depth) := by
  obtain ⟨bumpedA, hbumpA, hreadA, hlimitA⟩ := hu.exists_bump
  obtain ⟨bumpedB, hbumpB, hreadB, hlimitB⟩ := hv.exists_bump
  exact (Triple.numbers_bump_compares_iff hbumpA hbumpB hlimitA hlimitB).1
    (versionOrder_compares hreadA hreadB)

/-- What comes out above was above. -/
theorem BumpsWithin.gt_of_gt (hu : BumpsWithin kind u u' a) (hv : BumpsWithin kind v v' b)
    (h : versionOrder u' v' = .gt) : versionOrder u v = .gt := by
  have hafter := hu.compares hv
  rw [h] at hafter
  exact (versionOrder_compares hu.read hv.read).eq_gt.2 (lt_of_take_lt hafter)

/-- What comes out below was below. -/
theorem BumpsWithin.lt_of_lt (hu : BumpsWithin kind u u' a) (hv : BumpsWithin kind v v' b)
    (h : versionOrder u' v' = .lt) : versionOrder u v = .lt := by
  have hafter := hu.compares hv
  rw [h] at hafter
  exact (versionOrder_compares hu.read hv.read).eq_lt.2 (lt_of_take_lt hafter)

/-- Versions of the same numbers lead to the same text. -/
theorem BumpsWithin.eq_of_eq (hu : BumpsWithin kind u u' a) (hv : BumpsWithin kind v v' b)
    (h : versionOrder u v = .eq) : u' = v' := by
  have hbefore := versionOrder_compares hu.read hv.read
  rw [h] at hbefore
  obtain rfl := Triple.numbers_injective hbefore
  have hsame : bumpVersion u kind = bumpVersion v kind := by
    simp only [bumpVersion, hu.read, hv.read]
  rw [hu.bumped, hv.bumped] at hsame
  exact Except.ok.inj hsame

/-- A patch clears nothing. -/
theorem BumpsWithin.order_patch (hu : BumpsWithin .patch u u' a) (hv : BumpsWithin .patch v v' b) :
    versionOrder u' v' = versionOrder u v :=
  (hu.compares hv).inj (versionOrder_compares hu.read hv.read)

/-- **A bump never reverses the order of two versions.**  Below the limit of 64 bits the results
compare as the numbers of the two versions do, one after the other, down to the incremented one.  So
what is not above stays not above, what is equal stays equal, and a patch keeps the order as it is.
In a plan a member that is not ahead of the root does not get ahead of it, one that is not behind does
not fall behind, and a patch keeps the drift of every member. -/
theorem bumpVersion_keeps_order (hu : BumpsWithin kind u u' a) (hv : BumpsWithin kind v v' b) :
    (versionOrder u' v').Compares (a.numbers.take kind.depth) (b.numbers.take kind.depth)
      ∧ (versionOrder u v ≠ .gt → versionOrder u' v' ≠ .gt)
      ∧ (versionOrder u v = .eq → versionOrder u' v' = .eq ∧ u' = v')
      ∧ (kind = .patch → versionOrder u' v' = versionOrder u v)
      ∧ ∀ ws fs changes, plan ws fs kind = .ok changes →
        ∀ root ∈ changes, root.member = Workspace.rootMember → root.oldVersion = v →
        ∀ c ∈ changes, c.member ≠ Workspace.rootMember → c.oldVersion = u →
          (c.drift ≤ 0 → driftBetween c.newVersion root.newVersion ≤ 0)
          ∧ (0 ≤ c.drift → 0 ≤ driftBetween c.newVersion root.newVersion)
          ∧ (kind = .patch → driftBetween c.newVersion root.newVersion = c.drift) := by
  have hpatch : kind = .patch → versionOrder u' v' = versionOrder u v := by
    rintro rfl
    exact hu.order_patch hv
  have hequal : versionOrder u v = .eq → versionOrder u' v' = .eq ∧ u' = v' := by
    intro h
    obtain rfl := hu.eq_of_eq hv h
    obtain ⟨bumped, -, hread, -⟩ := hu.exists_bump
    exact ⟨versionOrder_self hread, rfl⟩
  refine ⟨hu.compares hv, mt (hu.gt_of_gt hv), hequal, hpatch, ?_⟩
  intro ws fs changes hplan root hroot hrootMember hrootOld c hc hmember hold
  obtain ⟨-, -, -, -, -, hplanned⟩ := plan_eq_ok hplan
  obtain ⟨rootVersion, -, hquery, -, hdrift⟩ := plan_drift hplan
  have hversion : rootVersion = v := by
    have h := (hplanned root hroot).old
    rw [hrootMember, hquery] at h
    exact (Except.ok.inj h).trans hrootOld
  have hcnew : c.newVersion = u' := by
    have h := (hplanned c hc).new
    rw [hold, hu.bumped] at h
    exact (Except.ok.inj h).symm
  have hrootNew : root.newVersion = v' := by
    have h := (hplanned root hroot).new
    rw [hrootOld, hv.bumped] at h
    exact (Except.ok.inj h).symm
  rw [hdrift c hc, if_neg hmember, hcnew, hrootNew, hold, hversion]
  unfold driftBetween
  refine ⟨fun hle => ?_, fun hge => ?_, fun hkind => by rw [hpatch hkind]⟩
  · cases hafter : versionOrder u' v' with
    | lt => decide
    | eq => decide
    | gt =>
      rw [hu.gt_of_gt hv hafter] at hle
      exact absurd hle (by decide)
  · cases hafter : versionOrder u' v' with
    | gt => decide
    | eq => decide
    | lt =>
      rw [hu.lt_of_lt hv hafter] at hge
      exact absurd hge (by decide)

end Order

/-- A member ahead of the root stays ahead by a patch. -/
theorem bumpVersion_keeps_order_ahead :
    BumpsWithin .patch (ascii "1.10.0") (ascii "1.10.1") ⟨1, 10, 0⟩
      ∧ BumpsWithin .patch (ascii "1.09.0") (ascii "1.9.1") ⟨1, 9, 0⟩
      ∧ versionOrder (ascii "1.10.1") (ascii "1.9.1")
        = versionOrder (ascii "1.10.0") (ascii "1.09.0")
      ∧ plan ⟨[], []⟩ driftingWorld.files .patch = .ok driftingChanges
      ∧ driftBetween (ascii "1.10.1") (ascii "1.9.1") = 1 := by
  have hmember : BumpsWithin .patch (ascii "1.10.0") (ascii "1.10.1") ⟨1, 10, 0⟩ :=
    ⟨by decide, by decide, by decide⟩
  have hroot : BumpsWithin .patch (ascii "1.09.0") (ascii "1.9.1") ⟨1, 9, 0⟩ :=
    ⟨by decide, by decide, by decide⟩
  obtain ⟨-, -, -, hpatch, hplanned⟩ := bumpVersion_keeps_order hmember hroot
  refine ⟨hmember, hroot, hpatch rfl, plan_drifting, ?_⟩
  have hdrift := (hplanned _ _ _ plan_drifting _ List.mem_cons_self rfl rfl _
    (List.mem_cons_of_mem _ List.mem_cons_self) (by decide) rfl).2.2 rfl
  exact hdrift

end CrateBump
