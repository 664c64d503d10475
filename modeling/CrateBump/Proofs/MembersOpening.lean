/-
# Where a members array opens

An array of members opens with its key, an equals sign and a bracket, and white space may stand around
the equals sign.  Nothing is asked of what precedes the key, so the array of a manifest is the first
such opening anywhere in the text.  The letters of the key do not overlap with themselves: no opening
starts in front of another one and ends inside it.

Main statements: the array found is the first one that opens (`findMembers?_opening`), and none is
found exactly if no opening is followed by a closing bracket (`findMembers?_eq_none_iff`).
-/
import CrateBump.Manifest.Members
import CrateBump.Proofs.LineSearch
import Mathlib.Data.List.TakeWhile

namespace CrateBump

/-! ## Openings of a members array -/

/-- Only white space. -/
def AllSpace (t : Text) : Prop := ∀ b ∈ t, Text.isSpace b = true

instance (t : Text) : Decidable (AllSpace t) :=
  List.decidableBAll (fun b => Text.isSpace b = true) t

/-- The text of an opening, from its key to its bracket. -/
def IsMembersOpening (o : Text) : Prop :=
  ∃ a b, AllSpace a ∧ AllSpace b ∧ o = membersWord ++ a ++ [61] ++ b ++ [91]

theorem AllSpace.not_mem {t : Text} (h : AllSpace t) {b : UInt8} (hb : Text.isSpace b = false) :
    b ∉ t := by
  intro hmem
  rw [h b hmem] at hb
  cases hb

/-- A byte that is neither white space nor one of the other bytes of an opening does not occur. -/
theorem IsMembersOpening.not_mem {o : Text} (h : IsMembersOpening o) {b : UInt8}
    (hspace : Text.isSpace b = false) (hb : b ∉ membersWord ++ [61, 91]) : b ∉ o := by
  obtain ⟨a, c, ha, hc, rfl⟩ := h
  simp only [List.mem_append, List.mem_cons, List.not_mem_nil, or_false, not_or] at hb
  simp only [List.mem_append, List.mem_singleton, ha.not_mem hspace, hc.not_mem hspace, hb, or_self,
    not_false_eq_true]

theorem IsMembersOpening.doubleQuote_not_mem {o : Text} (h : IsMembersOpening o) :
    doubleQuote ∉ o := h.not_mem (by decide) (by decide)

theorem IsMembersOpening.exists_bracket {o : Text} (h : IsMembersOpening o) :
    ∃ front, o = front ++ [91] := by
  obtain ⟨a, b, -, -, rfl⟩ := h
  exact ⟨_, rfl⟩

theorem IsMembersOpening.ne_nil {o : Text} (h : IsMembersOpening o) : o ≠ [] := by
  obtain ⟨a, b, -, -, rfl⟩ := h
  simp

/-- An opening is read back from its text. -/
theorem membersOpening?_append {o : Text} (h : IsMembersOpening o) (t : Text) :
    membersOpening? (o ++ t) = some (o, t) := by
  obtain ⟨a, b, ha, hb, rfl⟩ := h
  let afterEquals := b ++ 91 :: t
  let afterKey := a ++ 61 :: afterEquals
  have htext : membersWord ++ a ++ [61] ++ b ++ [91] ++ t = membersWord ++ afterKey := by
    simp only [afterKey, afterEquals, List.append_assoc, List.cons_append, List.nil_append]
  have hkey : Text.dropLead? membersWord (membersWord ++ afterKey) = some afterKey :=
    Text.dropLead?_eq_some_iff.2 rfl
  have hdropKey : afterKey.dropWhile Text.isSpace = 61 :: afterEquals := by
    rw [List.dropWhile_append_of_pos ha, List.dropWhile_cons_of_neg (by decide)]
  have htakeKey : afterKey.takeWhile Text.isSpace = a := by
    rw [List.takeWhile_append_of_pos ha, List.takeWhile_cons_of_neg (by decide), List.append_nil]
  have hdropEquals : afterEquals.dropWhile Text.isSpace = 91 :: t := by
    rw [List.dropWhile_append_of_pos hb, List.dropWhile_cons_of_neg (by decide)]
  have htakeEquals : afterEquals.takeWhile Text.isSpace = b := by
    rw [List.takeWhile_append_of_pos hb, List.takeWhile_cons_of_neg (by decide), List.append_nil]
  simp only [htext, membersOpening?, hkey, hdropKey, hdropEquals, htakeKey, htakeEquals]

theorem membersOpening?_eq_some {t o rest : Text} (h : membersOpening? t = some (o, rest)) :
    IsMembersOpening o ∧ t = o ++ rest := by
  unfold membersOpening? at h
  split at h
  · cases h
  next afterKey hkey =>
  split at h
  case h_2 => cases h
  next afterEquals hequals =>
  split at h
  case h_2 => cases h
  next rest' hrest =>
  obtain ⟨rfl, rfl⟩ := Prod.mk.inj (Option.some.inj h)
  refine ⟨⟨_, _, fun b hb => List.mem_takeWhile_imp hb, fun b hb => List.mem_takeWhile_imp hb, rfl⟩,
    ?_⟩
  calc t = membersWord ++ afterKey := Text.dropLead?_eq_some_iff.1 hkey
    _ = membersWord ++ (afterKey.takeWhile Text.isSpace ++ 61 :: afterEquals) := by
        rw [← hequals, List.takeWhile_append_dropWhile]
    _ = membersWord ++ (afterKey.takeWhile Text.isSpace
          ++ 61 :: (afterEquals.takeWhile Text.isSpace ++ 91 :: rest')) := by
        rw [← hrest, List.takeWhile_append_dropWhile]
    _ = _ := by simp only [List.append_assoc, List.cons_append, List.nil_append]

/-- Where an array opens, it opens whatever comes to follow. -/
theorem membersOpening?_of_append {s t : Text} (h : membersOpening? (s ++ t) = none) :
    membersOpening? s = none := by
  by_contra hs
  obtain ⟨⟨o, rest⟩, hopening⟩ := Option.ne_none_iff_exists'.1 hs
  obtain ⟨ho, rfl⟩ := membersOpening?_eq_some hopening
  rw [List.append_assoc, membersOpening?_append ho] at h
  cases h

/-- What follows a quote has no part in an opening before it. -/
theorem membersOpening?_quote_eq_none_iff (s t : Text) :
    membersOpening? (s ++ doubleQuote :: t) = none ↔ membersOpening? s = none := by
  refine ⟨membersOpening?_of_append, fun h => ?_⟩
  by_contra hs
  obtain ⟨⟨o, rest⟩, hopening⟩ := Option.ne_none_iff_exists'.1 hs
  obtain ⟨ho, heq⟩ := membersOpening?_eq_some hopening
  obtain ⟨more, rfl⟩ := exists_eq_append_of_not_mem ho.doubleQuote_not_mem heq
  rw [membersOpening?_append ho] at h
  cases h

/-- No opening starts in front of another one and ends inside it. -/
theorem membersOpening?_overlap {s o : Text} (hs : s ≠ []) (ho : IsMembersOpening o) (t : Text)
    (h : membersOpening? s = none) : membersOpening? (s ++ (o ++ t)) = none := by
  by_contra hne
  obtain ⟨⟨first, rest⟩, hopening⟩ := Option.ne_none_iff_exists'.1 hne
  obtain ⟨hfirst, heq⟩ := membersOpening?_eq_some hopening
  rcases List.append_eq_append_iff.1 heq with ⟨shared, hsplit, htail⟩ | ⟨more, rfl, -⟩
  case inr =>
    rw [membersOpening?_append hfirst] at h
    cases h
  cases shared with
  | nil =>
    rw [List.append_nil] at hsplit
    rw [← hsplit, ← List.append_nil first, membersOpening?_append hfirst] at h
    cases h
  | cons x shared =>
    -- the overlap starts like a key, whose first letter stands once more in a key, behind `me`
    have hword : membersWord = 109 :: 101 :: 109 :: 98 :: ascii "ers" := by decide
    obtain ⟨a, b, ha, hb, rfl⟩ := hfirst
    obtain ⟨c, d, -, -, rfl⟩ := ho
    simp only [hword, List.cons_append, List.cons.injEq] at hsplit htail
    obtain ⟨rfl, htail⟩ := htail
    match s, hs, hsplit with
    | [_], _, hsplit => simp at hsplit
    | [_, _], _, hsplit =>
      simp only [List.cons_append, List.nil_append, List.cons.injEq] at hsplit
      obtain ⟨-, -, -, rfl⟩ := hsplit
      simp at htail
    | _ :: _ :: _ :: s, _, hsplit =>
      simp only [List.cons_append, List.cons.injEq] at hsplit
      have hspace : Text.isSpace 109 = false := by decide
      have hrest : (109 : UInt8) ∉ ascii "ers" := by decide
      have hletter : 109 ∈ s ++ 109 :: shared := by simp
      rw [← hsplit.2.2.2] at hletter
      simp [hrest, ha.not_mem hspace, hb.not_mem hspace] at hletter

/-! ## Passing over text -/

/-- No members array opens inside `s` when `t` follows `s`. -/
def NoOpening : Text → Text → Prop
  | [], _ => True
  | b :: s, t => membersOpening? (b :: s ++ t) = none ∧ NoOpening s t

instance decidableNoOpening : (s t : Text) → Decidable (NoOpening s t)
  | [], _ => isTrue trivial
  | b :: s, t =>
    have := decidableNoOpening s t
    inferInstanceAs (Decidable (membersOpening? (b :: s ++ t) = none ∧ NoOpening s t))

theorem noOpening_append {s t u : Text} :
    NoOpening (s ++ t) u ↔ NoOpening s (t ++ u) ∧ NoOpening t u := by
  induction s with
  | nil => simp [NoOpening]
  | cons b s ih => simp only [List.cons_append, NoOpening, ih, List.append_assoc, and_assoc]

/-- Whether an array opens before a quote is decided before it. -/
theorem noOpening_quote_iff (s t u : Text) :
    NoOpening s (t ++ doubleQuote :: u) ↔ NoOpening s t := by
  induction s with
  | nil => rfl
  | cons b s ih =>
    rw [NoOpening, NoOpening, ih, ← List.append_assoc, membersOpening?_quote_eq_none_iff]

/-- No array opens at a byte that is not the first one of its key. -/
theorem membersOpening?_cons_of_ne {b : UInt8} (hb : b ≠ 109) (t : Text) :
    membersOpening? (b :: t) = none := by
  have hword : membersWord = 109 :: ascii "embers" := by decide
  have hdrop : Text.dropLead? membersWord (b :: t) = none := by
    rw [hword, Text.dropLead?, if_neg (Ne.symm hb)]
  rw [membersOpening?, hdrop]

theorem noOpening_of_not_mem {s : Text} (h : 109 ∉ s) (t : Text) : NoOpening s t := by
  induction s with
  | nil => trivial
  | cons b s ih =>
    rw [List.mem_cons, not_or] at h
    exact ⟨membersOpening?_cons_of_ne (Ne.symm h.1) _, ih h.2⟩

/-- The search goes on behind text in which no array opens. -/
theorem findMembersSite?_append {s t : Text} (h : NoOpening s t) :
    findMembersSite? (s ++ t)
      = (findMembersSite? t).map fun m => { m with before := s ++ m.before } := by
  induction s with
  | nil =>
    rw [List.nil_append]
    exact (Option.map_id_apply).symm
  | cons b s ih =>
    have hnone : membersOpening? (b :: (s ++ t)) = none := h.1
    rw [List.cons_append, findMembersSite?, hnone]
    simp only [ih h.2, Option.map_map]
    rfl

/-- The search ends at an opening. -/
theorem findMembersSite?_opening {o : Text} (ho : IsMembersOpening o) (inner : Text) :
    findMembersSite? (o ++ inner)
      = if inner.contains 93 then
          some ⟨o, inner.takeWhile (· != 93), inner.dropWhile (· != 93)⟩ else none := by
  have hopening := membersOpening?_append ho inner
  obtain ⟨a, b, -, -, rfl⟩ := ho
  have hword : membersWord = 109 :: ascii "embers" := by decide
  rw [hword] at hopening ⊢
  simp only [List.cons_append, List.append_assoc] at hopening ⊢
  rw [findMembersSite?, hopening]

/-- A text has a first opening, or none. -/
theorem opening_or_noOpening (s : Text) :
    (∃ skip o rest, s = skip ++ (o ++ rest) ∧ IsMembersOpening o ∧ NoOpening skip (o ++ rest))
      ∨ NoOpening s [] := by
  induction s with
  | nil => exact Or.inr trivial
  | cons b s ih =>
    cases hopening : membersOpening? (b :: s) with
    | some found =>
      obtain ⟨o, rest⟩ := found
      obtain ⟨ho, heq⟩ := membersOpening?_eq_some hopening
      exact Or.inl ⟨[], o, rest, heq, ho, trivial⟩
    | none =>
      rcases ih with ⟨skip, o, rest, rfl, ho, hskip⟩ | hnone
      · exact Or.inl ⟨b :: skip, o, rest, rfl, ho, hopening, hskip⟩
      · exact Or.inr ⟨by rw [List.append_nil]; exact hopening, hnone⟩

/-! ## Occurrences of an opening -/

/-- An array opens somewhere in the text. -/
def Opens (t : Text) : Prop := ∃ skip o rest, IsMembersOpening o ∧ t = skip ++ (o ++ rest)

theorem not_noOpening_opening {o : Text} (ho : IsMembersOpening o) (s t : Text) :
    ¬ NoOpening (o ++ s) t := by
  intro h
  have hopening := membersOpening?_append ho (s ++ t)
  obtain ⟨b, o', rfl⟩ := List.exists_cons_of_ne_nil ho.ne_nil
  have hnone : membersOpening? (b :: o' ++ s ++ t) = none := h.1
  rw [List.append_assoc, hopening] at hnone
  cases hnone

theorem noOpening_nil_iff {t : Text} : NoOpening t [] ↔ ¬ Opens t := by
  constructor
  · rintro h ⟨skip, o, rest, ho, rfl⟩
    exact not_noOpening_opening ho rest [] (noOpening_append.1 h).2
  · intro h
    rcases opening_or_noOpening t with ⟨skip, o, rest, ht, ho, -⟩ | hnone
    · exact absurd ⟨skip, o, rest, ho, ht⟩ h
    · exact hnone

instance (t : Text) : Decidable (Opens t) :=
  decidable_of_iff (¬ NoOpening t []) (by rw [noOpening_nil_iff, not_not])

/-- Whether an array opens before an opening is decided before it. -/
theorem noOpening_opening_iff {o : Text} (ho : IsMembersOpening o) (s t : Text) :
    NoOpening s (o ++ t) ↔ ¬ Opens s := by
  rw [← noOpening_nil_iff]
  induction s with
  | nil => rfl
  | cons b s ih =>
    rw [NoOpening, NoOpening, ih, List.append_nil]
    exact and_congr_left' ⟨membersOpening?_of_append,
      membersOpening?_overlap (List.cons_ne_nil b s) ho t⟩

/-! ## The members of a manifest -/

/-- What stands in front of the closing bracket of an array. -/
def arrayBody (t : Text) : Text := t.takeWhile (· != 93)

theorem arrayBody_append_of_not_mem {s : Text} (h : 93 ∉ s) (t : Text) :
    arrayBody (s ++ t) = s ++ arrayBody t :=
  List.takeWhile_append_of_pos fun _ hb => bne_iff_ne.2 (ne_of_mem_of_not_mem hb h)

/-- The members are the entries of the first array that opens, if it is closed. -/
theorem findMembers?_opening {skip o inner : Text} (hskip : ¬ Opens skip) (ho : IsMembersOpening o)
    (hclosed : 93 ∈ inner) :
    findMembers? (skip ++ (o ++ inner)) = some (entries (arrayBody inner)) := by
  have hpass : NoOpening skip (o ++ inner) := (noOpening_opening_iff ho skip inner).2 hskip
  rw [findMembers?, findMembersSite?_append hpass, findMembersSite?_opening ho,
    if_pos (List.contains_iff_mem.2 hclosed)]
  rfl

/-- No members are found exactly if no opening is followed by a closing bracket. -/
theorem findMembers?_eq_none_iff {content : Text} :
    findMembers? content = none
      ↔ ∀ skip o inner, content = skip ++ (o ++ inner) → IsMembersOpening o → 93 ∉ inner := by
  rw [findMembers?, Option.map_eq_none_iff]
  induction content with
  | nil =>
    refine ⟨fun _ skip o inner hcontent ho => ?_, fun _ => rfl⟩
    simp [ho.ne_nil] at hcontent
  | cons b rest ih =>
    rw [findMembersSite?]
    cases hopening : membersOpening? (b :: rest) with
    | some found =>
      obtain ⟨o, inner⟩ := found
      obtain ⟨ho, htext⟩ := membersOpening?_eq_some hopening
      have hfirst : (if inner.contains 93 then
          some (MembersSite.mk o (inner.takeWhile (· != 93)) (inner.dropWhile (· != 93))) else none)
            = none ↔ 93 ∉ inner := by simp
      refine hfirst.trans ⟨fun hinner skip o' inner' hcontent _ hmem => ?_, fun h => h [] o inner htext ho⟩
      -- the closing bracket of any array stands behind the first opening
      have hclosed : 93 ∈ o ++ inner := by rw [← htext, hcontent]; simp [hmem]
      rcases List.mem_append.1 hclosed with hmem | hmem
      · exact ho.not_mem (by decide) (by decide) hmem
      · exact hinner hmem
    | none =>
      refine Option.map_eq_none_iff.trans (ih.trans ⟨fun h skip o inner hcontent ho => ?_, ?_⟩)
      · cases skip with
        | nil =>
          rw [hcontent, List.nil_append, membersOpening?_append ho] at hopening
          cases hopening
        | cons c skip => exact h skip o inner (List.cons.inj hcontent).2 ho
      · intro h skip o inner hrest ho
        exact h (b :: skip) o inner (by rw [hrest, List.cons_append]) ho

end CrateBump
